import ClassThaw.Edit

/-! Additions to a pool, reports and edits are all steps that may fail and whose effects stay. -/

namespace ClassThaw

variable {ε σ α β : Type} {step : ExceptT ε (StateM σ) α} {next : α → ExceptT ε (StateM σ) β}
  {before middle after : σ} {value : α} {result : β}

/-- Run from a state, the step succeeds with a value and leaves another state. -/
def Gives (step : ExceptT ε (StateM σ) α) (before : σ) (value : α) (after : σ) : Prop :=
  step.run before = (.ok value, after)

theorem gives_iff : Gives step before value after ↔
    (step.run before).1 = .ok value ∧ (step.run before).2 = after := by
  constructor
  · intro h
    rw [Gives] at h
    rw [h]
    exact ⟨rfl, rfl⟩
  · rintro ⟨hvalue, rfl⟩
    exact Prod.ext hvalue rfl

instance [DecidableEq α] [DecidableEq σ] : Decidable (Gives step before value after) :=
  match hrun : (step.run before : Except ε α × σ) with
  | (.ok found, state) => decidable_of_iff (found = value ∧ state = after) <| by
    rw [gives_iff, hrun, Except.ok.injEq]
  | (.error error, state) => isFalse <| by
    rw [gives_iff, hrun]
    rintro ⟨hvalue, -⟩
    cases hvalue

theorem run_get_bind (next : σ → ExceptT ε (StateM σ) β) (state : σ) :
    (get >>= next).run state = (next state).run state := rfl

theorem run_bind_of_ok (h : step.run before = (.ok value, middle)) :
    (step >>= next).run before = (next value).run middle := by
  simp only [Bind.bind, ExceptT.bind, ExceptT.run, ExceptT.mk, StateT.bind] at *
  rw [h]
  rfl

theorem run_bind_of_error {error : ε} (h : step.run before = (.error error, middle)) :
    (step >>= next).run before = (.error error, middle) := by
  simp only [Bind.bind, ExceptT.bind, ExceptT.run, ExceptT.mk, StateT.bind] at *
  rw [h]
  rfl

/-- Steps that cannot fail hand on what they return and what they leave. -/
theorem run_bind_eq {step : StateM σ α} {next : α → StateM σ β}
    (h : step.run before = (value, middle)) :
    (step >>= next).run before = (next value).run middle := by
  simp only [Bind.bind, StateT.run, StateT.bind] at *
  rw [h]

/-- Two steps in turn succeed exactly if the first does, and the second from where it ends. -/
theorem gives_bind : Gives (step >>= next) before result after ↔
    ∃ value middle, Gives step before value middle ∧ Gives (next value) middle result after := by
  constructor
  · intro h
    -- Only a first step that succeeds lets the second one run.
    cases hstep : (step.run before).1 with
    | error error =>
      have hrun : step.run before = (.error error, (step.run before).2) := Prod.ext hstep rfl
      rw [Gives, run_bind_of_error hrun] at h
      cases h
    | ok value =>
      have hrun : step.run before = (.ok value, (step.run before).2) := Prod.ext hstep rfl
      rw [Gives, run_bind_of_ok hrun] at h
      exact ⟨value, _, hrun, h⟩
  · rintro ⟨value, middle, hstep, hnext⟩
    exact (run_bind_of_ok hstep).trans hnext

theorem gives_bind_of (h : Gives step before value middle) :
    Gives (step >>= next) before result after ↔ Gives (next value) middle result after := by
  rw [Gives, Gives, run_bind_of_ok h]

theorem gives_pure {found : α} :
    Gives (pure value : ExceptT ε (StateM σ) α) before found after ↔
      found = value ∧ after = before := by
  constructor
  · rintro ⟨⟩
    exact ⟨rfl, rfl⟩
  · rintro ⟨rfl, rfl⟩
    rfl

theorem gives_throw {error : ε} :
    ¬ Gives (throw error : ExceptT ε (StateM σ) α) before value after := by
  rintro ⟨⟩

theorem gives_get_bind {next : σ → ExceptT ε (StateM σ) β} :
    Gives (get >>= next) before result after ↔ Gives (next before) before result after := Iff.rfl

theorem gives_set_bind {next : PUnit → ExceptT ε (StateM σ) β} :
    Gives (set middle >>= next) before result after ↔ Gives (next ⟨⟩) middle result after := Iff.rfl

theorem gives_modify {f : σ → σ} {found : PUnit} :
    Gives (modify f : ExceptT ε (StateM σ) PUnit) before found after ↔ after = f before := by
  constructor
  · rintro ⟨⟩
    rfl
  · rintro rfl
    rfl

/-- Run from a state, the step fails with an error. -/
def Fails (step : ExceptT ε (StateM σ) α) (before : σ) (error : ε) : Prop :=
  (step.run before).1 = .error error

variable {error : ε}

theorem Gives.not_fails (h : Gives step before value after) : ¬ Fails step before error := by
  intro hfails
  rw [Fails, (gives_iff.mp h).1] at hfails
  cases hfails

theorem Fails.unique {error' : ε} (h : Fails step before error) (h' : Fails step before error') :
    error' = error :=
  Except.error.inj (h'.symm.trans h)

theorem Fails.bind (h : Fails step before error) : Fails (step >>= next) before error := by
  have hrun : step.run before = (.error error, (step.run before).2) := Prod.ext h rfl
  rw [Fails, run_bind_of_error hrun]

theorem fails_bind_of (h : Gives step before value middle) :
    Fails (step >>= next) before error ↔ Fails (next value) middle error := by
  rw [Fails, Fails, run_bind_of_ok h]

/-- Two steps in turn fail exactly if the first does, or the second from where the first ends. -/
theorem fails_bind : Fails (step >>= next) before error ↔ Fails step before error ∨
    ∃ value middle, Gives step before value middle ∧ Fails (next value) middle error := by
  constructor
  · intro h
    cases hstep : (step.run before).1 with
    | error cause =>
      have hfails : Fails step before cause := hstep
      rw [hfails.bind.unique h]
      exact .inl hfails
    | ok value =>
      have hgives : Gives step before value (step.run before).2 := gives_iff.mpr ⟨hstep, rfl⟩
      exact .inr ⟨value, _, hgives, (fails_bind_of hgives).mp h⟩
  · rintro (h | ⟨value, middle, hgives, h⟩)
    · exact h.bind
    · exact (fails_bind_of hgives).mpr h

theorem fails_throw {found : ε} :
    Fails (throw error : ExceptT ε (StateM σ) α) before found ↔ found = error := by
  constructor
  · rintro ⟨⟩
    rfl
  · rintro rfl
    rfl

/-- Run from a state, the step leaves a state of which this holds, whether it succeeds or fails. -/
def Leaves (step : ExceptT ε (StateM σ) α) (before : σ) (holds : σ → Prop) : Prop :=
  holds (step.run before).2

variable {holds : σ → Prop}

theorem leaves_pure (h : holds before) :
    Leaves (pure value : ExceptT ε (StateM σ) α) before holds := h

theorem leaves_throw (h : holds before) :
    Leaves (throw error : ExceptT ε (StateM σ) α) before holds := h

theorem leaves_bind_of (h : Gives step before value middle) :
    Leaves (step >>= next) before holds ↔ Leaves (next value) middle holds := by
  rw [Leaves, Leaves, run_bind_of_ok h]

/-- Where the first of two steps fails, what it leaves is left. -/
theorem leaves_bind_of_fails (h : Fails step before error) :
    Leaves (step >>= next) before holds ↔ Leaves step before holds := by
  have hrun : step.run before = (.error error, (step.run before).2) := Prod.ext h rfl
  rw [Leaves, run_bind_of_error hrun]
  rfl

theorem Leaves.of_gives (h : Leaves step before holds) (hgives : Gives step before value after) :
    holds after := by
  rwa [Leaves, (gives_iff.mp hgives).2] at h

/-- What the first of two steps leaves is left if it fails, and is what the second one is run
from if it succeeds. -/
theorem leaves_bind (hstep : Leaves step before holds)
    (hnext : ∀ value middle, Gives step before value middle → holds middle →
      Leaves (next value) middle holds) :
    Leaves (step >>= next) before holds := by
  rcases hrun : step.run before with ⟨outcome, middle⟩
  rw [Leaves, hrun] at hstep
  cases outcome with
  | error error =>
    rw [Leaves, run_bind_of_error hrun]
    exact hstep
  | ok value =>
    rw [leaves_bind_of hrun]
    exact hnext value middle hrun hstep

theorem leaves_forM {items : List α} {test : α → ExceptT ε (StateM σ) PUnit}
    (h : ∀ item ∈ items, ∀ state, holds state → Leaves (test item) state holds)
    (hbefore : holds before) : Leaves (items.forM test) before holds := by
  induction items generalizing before with
  | nil => exact leaves_pure hbefore
  | cons item items ih =>
    obtain ⟨hitem, hitems⟩ := List.forall_mem_cons.mp h
    have hcons : (item :: items).forM test = test item >>= fun _ => items.forM test := rfl
    rw [hcons]
    apply leaves_bind (hitem before hbefore)
    intro _ middle _ hmiddle
    exact ih hitems hmiddle

/-- Run from a shifted state, the step comes to the same result, and leaves the shifted state. -/
def Commutes (shift : σ → σ) (step : ExceptT ε (StateM σ) α) : Prop :=
  ∀ state, step.run (shift state) = ((step.run state).1, shift (step.run state).2)

variable {shift : σ → σ}

theorem commutes_pure (value : α) : Commutes shift (pure value : ExceptT ε (StateM σ) α) :=
  fun _ => rfl

theorem commutes_throw (error : ε) : Commutes shift (throw error : ExceptT ε (StateM σ) α) :=
  fun _ => rfl

theorem commutes_lift (looked : Except ε α) :
    Commutes shift (liftM looked : ExceptT ε (StateM σ) α) := by
  intro state
  cases looked <;> rfl

theorem commutes_modify {f : σ → σ} (h : ∀ state, f (shift state) = shift (f state)) :
    Commutes shift (modify f : ExceptT ε (StateM σ) PUnit) :=
  fun state => congrArg (Prod.mk _) (h state)

theorem Commutes.bind (h : Commutes shift step) (hnext : ∀ value, Commutes shift (next value)) :
    Commutes shift (step >>= next) := by
  intro state
  have hshifted := h state
  rcases hrun : step.run state with ⟨outcome, middle⟩
  rw [hrun] at hshifted
  cases outcome with
  | error error => rw [run_bind_of_error hrun, run_bind_of_error hshifted]
  | ok value =>
    rw [run_bind_of_ok hrun, run_bind_of_ok hshifted]
    exact hnext value middle

theorem commutes_forM {items : List α} {test : α → ExceptT ε (StateM σ) PUnit}
    (h : ∀ item ∈ items, Commutes shift (test item)) : Commutes shift (items.forM test) := by
  induction items with
  | nil => exact commutes_pure PUnit.unit
  | cons item items ih =>
    obtain ⟨hitem, hitems⟩ := List.forall_mem_cons.mp h
    have hcons : (item :: items).forM test = test item >>= fun _ => items.forM test := rfl
    rw [hcons]
    exact hitem.bind fun _ => ih hitems

section agreement

variable {α' β' : Type} {step' : ExceptT ε (StateM σ) α'} {next' : α' → ExceptT ε (StateM σ) β'}
  {before' : σ} {agree : α → σ → α' → σ → Prop} {agree' : β → σ → β' → σ → Prop}

/-- Run from two states, the two steps both fail, with the same error, or both succeed, and this
holds of what they return and leave. -/
def Agree (step : ExceptT ε (StateM σ) α) (before : σ) (step' : ExceptT ε (StateM σ) α')
    (before' : σ) (agree : α → σ → α' → σ → Prop) : Prop :=
  (∃ value after value' after', Gives step before value after ∧
    Gives step' before' value' after' ∧ agree value after value' after') ∨
  ∃ error, Fails step before error ∧ Fails step' before' error

theorem agree_pure {value' : α'} (h : agree value before value' before') :
    Agree (pure value) before (pure value' : ExceptT ε (StateM σ) α') before' agree :=
  .inl ⟨value, before, value', before', rfl, rfl, h⟩

theorem agree_throw :
    Agree (throw error : ExceptT ε (StateM σ) α) before (throw error : ExceptT ε (StateM σ) α')
      before' agree :=
  .inr ⟨error, rfl, rfl⟩

/-- Steps in turn agree if the first ones do, and the second ones from wherever these end. -/
theorem Agree.bind (h : Agree step before step' before' agree)
    (hnext : ∀ value after value' after', agree value after value' after' →
      Agree (next value) after (next' value') after' agree') :
    Agree (step >>= next) before (step' >>= next') before' agree' := by
  rcases h with ⟨value, after, value', after', hgives, hgives', hagree⟩ | ⟨error, hfails, hfails'⟩
  · rcases hnext value after value' after' hagree with
      ⟨result, last, result', last', hlast, hlast', hresult⟩ | ⟨error, hfails, hfails'⟩
    · exact .inl ⟨result, last, result', last', (gives_bind_of hgives).mpr hlast,
        (gives_bind_of hgives').mpr hlast', hresult⟩
    · exact .inr ⟨error, (fails_bind_of hgives).mpr hfails, (fails_bind_of hgives').mpr hfails'⟩
  · exact .inr ⟨error, hfails.bind, hfails'.bind⟩

theorem Agree.weaken {weaker : α → σ → α' → σ → Prop} (h : Agree step before step' before' agree)
    (hweaker : ∀ value after value' after', agree value after value' after' →
      weaker value after value' after') : Agree step before step' before' weaker := by
  rcases h with ⟨value, after, value', after', hgives, hgives', hagree⟩ | hfails
  · exact .inl ⟨value, after, value', after', hgives, hgives', hweaker _ _ _ _ hagree⟩
  · exact .inr hfails

/-- Tests that change nothing agree if each of them does. -/
theorem agree_forM {items : List β} {test : β → ExceptT ε (StateM σ) PUnit}
    (h : ∀ item ∈ items, Agree (test item) before (test item) before' fun _ after _ after' =>
      after = before ∧ after' = before') :
    Agree (items.forM test) before (items.forM test) before' fun _ after _ after' =>
      after = before ∧ after' = before' := by
  induction items with
  | nil => exact agree_pure ⟨rfl, rfl⟩
  | cons item items ih =>
    obtain ⟨hitem, hitems⟩ := List.forall_mem_cons.mp h
    have hcons : (item :: items).forM test = test item >>= fun _ => items.forM test := rfl
    rw [hcons]
    apply hitem.bind
    rintro _ _ _ _ ⟨rfl, rfl⟩
    exact ih hitems

end agreement

end ClassThaw
