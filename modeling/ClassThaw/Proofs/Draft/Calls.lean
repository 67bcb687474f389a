import ClassThaw.Draft
import ClassThaw.Proofs.ConstantPool.Invariant
import ClassThaw.Proofs.Pointwise

/-! A step of a draft cannot fail, but its calls can: the draft keeps the first error, and goes on
with index 0. What is made of the indices is said for drafts without an error only. -/

namespace ClassThaw

open List (Forall₂)

namespace ConstantPool

/-- What each of these calls comes to, when they are made in turn and go on after a failure. -/
def outcomes (pool : ConstantPool) : List Addition → List (Except FormatError UInt16)
  | [] => []
  | call :: calls => (call.change.run pool).1 :: outcomes (call.change.run pool).2 calls

variable {pool : ConstantPool} {calls calls' : List Addition}

theorem afterCalls_append :
    pool.afterCalls (calls ++ calls') = (pool.afterCalls calls).afterCalls calls' :=
  List.foldl_append

theorem outcomes_append : pool.outcomes (calls ++ calls') =
    pool.outcomes calls ++ (pool.afterCalls calls).outcomes calls' := by
  induction calls generalizing pool with
  | nil => rfl
  | cons call calls ih => exact congrArg (List.cons _) ih

end ConstantPool

namespace Draft

open ConstantPool

/-- The error of a call that failed. -/
def failure? : Except FormatError UInt16 → Option FormatError
  | .ok _ => none
  | .error error => some error

/-- The error of the first call that failed. -/
def firstFailure? (outcomes : List (Except FormatError UInt16)) : Option FormatError :=
  outcomes.findSome? failure?

theorem failure?_eq_none_iff {outcome : Except FormatError UInt16} :
    failure? outcome = none ↔ ∃ index, outcome = .ok index := by
  cases outcome with
  | ok index => exact iff_of_true rfl ⟨index, rfl⟩
  | error error => simp [failure?]

theorem failure?_eq_some_iff {outcome : Except FormatError UInt16} {error : FormatError} :
    failure? outcome = some error ↔ outcome = .error error := by
  cases outcome <;> simp [failure?]

theorem firstFailure?_eq_none_iff {outcomes : List (Except FormatError UInt16)} :
    firstFailure? outcomes = none ↔ ∀ outcome ∈ outcomes, ∃ index, outcome = .ok index := by
  simp only [firstFailure?, List.findSome?_eq_none_iff, failure?_eq_none_iff]

theorem firstFailure?_eq_some_iff {outcomes : List (Except FormatError UInt16)}
    {error : FormatError} : firstFailure? outcomes = some error ↔
      ∃ earlier later, outcomes = earlier ++ .error error :: later ∧
        ∀ outcome ∈ earlier, ∃ index, outcome = .ok index := by
  simp only [firstFailure?, List.findSome?_eq_some_iff, failure?_eq_some_iff, failure?_eq_none_iff]
  constructor
  · rintro ⟨earlier, _, later, houtcomes, rfl, hearlier⟩
    exact ⟨earlier, later, houtcomes, hearlier⟩
  · rintro ⟨earlier, later, houtcomes, hearlier⟩
    exact ⟨earlier, _, later, houtcomes, rfl, hearlier⟩

theorem run_intern_of_ok {change : PoolChange UInt16} {draft : Draft} {index : UInt16}
    {pool : ConstantPool} (h : change.run draft.file.pool = (.ok index, pool)) :
    (intern change).run draft = (index, { draft with file := { draft.file with pool } }) := by
  simp only [intern, StateT.run, bind, StateT.bind, get, getThe, MonadStateOf.get, StateT.get,
    pure]
  rw [h]
  rfl

theorem run_intern_of_error {change : PoolChange UInt16} {draft : Draft} {error : FormatError}
    {pool : ConstantPool} (h : change.run draft.file.pool = (.error error, pool)) :
    (intern change).run draft =
      (0, ⟨{ draft.file with pool }, draft.error?.or (some error)⟩) := by
  simp only [intern, StateT.run, bind, StateT.bind, get, getThe, MonadStateOf.get, StateT.get,
    pure]
  rw [h]
  cases draft.error? <;> rfl

variable {α β : Type} {given : ClassFile → Prop} {step : StateM Draft α}
  {next : α → StateM Draft β} {calls calls' : List Addition} {result : α → ClassFile → Prop}
  {final : β → ClassFile → Prop}

/-- Taken on any draft with a sound pool, the step makes these calls. If no call has failed by then,
and `given` held of the class before, `result` holds of what is returned and of the class after. -/
def Makes (given : ClassFile → Prop) (step : StateM Draft α) (calls : List Addition)
    (result : α → ClassFile → Prop) : Prop :=
  ∀ before : Draft, before.file.pool.Sound →
    (step.run before).2.file.pool = before.file.pool.afterCalls calls ∧
    (step.run before).2.error? =
      before.error?.or (firstFailure? (before.file.pool.outcomes calls)) ∧
    ((step.run before).2.error? = none → given before.file →
      result (step.run before).1 (step.run before).2.file)

/-- What holds of a class goes on to hold while its pool grows. -/
def Endures (given : ClassFile → Prop) : Prop :=
  ∀ (file : ClassFile) (pool : ConstantPool), file.pool.Grows pool → given file →
    given { file with pool }

theorem Endures.beside {holds : ConstantPool → Prop} (h : Endures given)
    (hgrow : ∀ before after : ConstantPool, before.Grows after → holds before → holds after) :
    Endures fun file => holds file.pool ∧ given file := by
  rintro file pool hgrows ⟨hholds, hfile⟩
  exact ⟨hgrow _ _ hgrows hholds, h file pool hgrows hfile⟩

theorem Makes.bind (h : Makes given step calls result)
    (hnext : ∀ value, Makes (result value) (next value) calls' final) :
    Makes given (step >>= next) (calls ++ calls') final := by
  intro before hsound
  obtain ⟨hpool, herror, hvalue⟩ := h before hsound
  rcases hrun : step.run before with ⟨value, middle⟩
  rw [hrun] at hpool herror hvalue
  have hmiddle := (hsound.afterCalls calls).1
  rw [← hpool] at hmiddle
  obtain ⟨hpool', herror', hfinal⟩ := hnext value middle hmiddle
  rw [run_bind_eq hrun]
  refine ⟨?_, ?_, ?_⟩
  · rw [hpool', hpool, afterCalls_append]
  · rw [herror', herror, hpool, outcomes_append, firstFailure?, firstFailure?, firstFailure?,
      List.findSome?_append, Option.or_assoc]
  · intro hnone hbefore
    -- An error is never forgotten, so there was none in between either.
    have hnone' : middle.error? = none := (Option.or_eq_none_iff.mp (herror' ▸ hnone)).1
    exact hfinal hnone (hvalue hnone' hbefore)

theorem makes_pure (value : α) (hresult : ∀ file, given file → result value file) :
    Makes given (pure value) [] result := by
  intro before _
  exact ⟨rfl, Option.or_none.symm, fun _ hbefore => hresult before.file hbefore⟩

/-- A change of the class that leaves its pool alone. -/
theorem makes_change {f : ClassFile → ClassFile} {holds : ClassFile → Prop}
    (hpool : ∀ file, (f file).pool = file.pool)
    (hholds : ∀ file, file.pool.Sound → given file → holds (f file)) :
    Makes given (change f) [] fun _ => holds := by
  intro before hsound
  exact ⟨hpool before.file, Option.or_none.symm, fun _ => hholds before.file hsound⟩

theorem Makes.bind_pure {f : α → β} (h : Makes given step calls result)
    (hfinal : ∀ value file, result value file → final (f value) file) :
    Makes given (step >>= fun value => pure (f value)) calls final := by
  rw [← List.append_nil calls]
  exact h.bind fun value => makes_pure (f value) (hfinal value)

theorem Makes.bind_change {f : α → ClassFile → ClassFile} {holds : ClassFile → Prop}
    (h : Makes given step calls result) (hpool : ∀ value file, (f value file).pool = file.pool)
    (hholds : ∀ value file, file.pool.Sound → result value file → holds (f value file)) :
    Makes given (step >>= fun value => change (f value)) calls fun _ => holds := by
  rw [← List.append_nil calls]
  exact h.bind fun value => makes_change (hpool value) (hholds value)

/-- Unless it failed, a call returns an index that leads to what it was made for. -/
theorem makes_intern (addition : Addition) (hgiven : Endures given) :
    Makes given (intern addition.change) [addition]
      fun index file => addition.Found index file.pool ∧ given file := by
  intro before hsound
  obtain ⟨-, hgrows, hfound⟩ := addition.adds_change before.file.pool hsound trivial
  rcases hrun : addition.change.run before.file.pool with ⟨outcome, pool⟩
  rw [hrun] at hgrows hfound
  have hpool : before.file.pool.afterCalls [addition] = pool := congrArg Prod.snd hrun
  have houtcome : before.file.pool.outcomes [addition] = [outcome] :=
    congrArg (fun ran : Except FormatError UInt16 × ConstantPool => [ran.1]) hrun
  rw [hpool, houtcome]
  cases outcome with
  | ok index =>
    rw [run_intern_of_ok hrun]
    exact ⟨rfl, Option.or_none.symm, fun _ hbefore =>
      ⟨hfound index rfl, hgiven before.file pool hgrows hbefore⟩⟩
  | error error =>
    rw [run_intern_of_error hrun]
    refine ⟨rfl, rfl, ?_⟩
    -- The draft has an error now, so that nothing is said about index 0.
    intro hnone
    cases (Option.or_eq_none_iff.mp hnone).2

theorem makes_text (text : String) (hgiven : Endures given) :
    Makes given (intern (internText text)) [.text text]
      fun index file => file.pool.IsText text index ∧ given file :=
  makes_intern (.text text) hgiven

theorem makes_class (name : String) (hgiven : Endures given) :
    Makes given (intern (internClass name)) [.class name]
      fun index file => file.pool.IsClass name index ∧ given file :=
  makes_intern (.class name) hgiven

theorem makes_integer (value : Int32) (hgiven : Endures given) :
    Makes given (intern (internInteger value)) [.integer value]
      fun index file => file.pool.get? index = some (.integer value) ∧ given file :=
  makes_intern (.integer value) hgiven

/-- Texts that are added one after the other are found one after the other. -/
theorem makes_texts (texts : List String) (hgiven : Endures given) :
    Makes given (texts.mapM fun text => intern (internText text)) (texts.map .text)
      fun indices file => Forall₂ (file.pool.IsText · ·) texts indices ∧ given file := by
  induction texts generalizing given with
  | nil => exact makes_pure [] fun file hfile => ⟨.nil, hfile⟩
  | cons text texts ih =>
    rw [List.mapM_cons]
    -- What has been found is one of the things that last while the other texts are added.
    apply (makes_text text hgiven).bind
    intro index
    apply (ih (hgiven.beside fun _ _ => IsText.grow)).bind_pure
    rintro indices file ⟨hindices, hindex, hfile⟩
    exact ⟨.cons hindex hindices, hfile⟩

end Draft

end ClassThaw
