import ClassThaw.Proofs.Run

namespace ClassThaw

/-- The events that matter as much as the level says, in turn. -/
def eventsAt (level : Level) (events : Array Event) : List Event :=
  events.toList.filter fun event => event.level = level

theorem eventsAt_append (level : Level) (events later : Array Event) :
    eventsAt level (events ++ later) = eventsAt level events ++ eventsAt level later := by
  rw [eventsAt, Array.toList_append, List.filter_append]
  rfl

theorem eventsAt_push (level : Level) (events : Array Event) (event : Event) :
    eventsAt level (events.push event) =
      eventsAt level events ++ if event.level = level then [event] else [] := by
  rw [Array.push_eq_append, eventsAt_append]
  simp [eventsAt, List.filter_cons]

theorem mem_of_mem_eventsAt {level : Level} {events : Array Event} {event : Event}
    (h : event ∈ eventsAt level events) : event ∈ events :=
  Array.mem_toList_iff.mp (List.mem_filter.mp h).1

theorem eventsAt_eq_nil {level : Level} {events : Array Event}
    (h : ∀ event ∈ events, event.level ≠ level) : eventsAt level events = [] := by
  refine List.filter_eq_nil_iff.mpr ?_
  intro event hevent
  rw [decide_eq_true_iff]
  exact h event (Array.mem_toList_iff.mp hevent)

/-- The class under an edit with one more event. -/
def Workpiece.reported (work : Workpiece) (event : Event) : Workpiece :=
  { work with log := work.log.push event }

variable {α β : Type} {work after : Workpiece} {value : α} {result : β}

namespace Edit

theorem run_file_bind {next : ClassFile → Edit β} :
    (Edit.file >>= next).run work = (next work.file).run work := rfl

theorem gives_file_bind {next : ClassFile → Edit β} :
    Gives (Edit.file >>= next) work result after ↔ Gives (next work.file) work result after :=
  Iff.rfl

theorem gives_change {f : ClassFile → ClassFile} {found : Unit} :
    Gives (Edit.change f) work found after ↔ after = { work with file := f work.file } :=
  gives_modify

theorem gives_change_bind {f : ClassFile → ClassFile} {next : Unit → Edit β} :
    Gives (Edit.change f >>= next) work result after ↔
      Gives (next ()) { work with file := f work.file } result after :=
  Iff.rfl

theorem gives_report {event : Event} {found : Unit} :
    Gives (Edit.report event) work found after ↔ after = work.reported event :=
  gives_modify

theorem gives_lookUp {looked : Except FormatError α} :
    Gives (Edit.lookUp looked) work value after ↔ looked = .ok value ∧ after = work := by
  cases looked with
  | ok found =>
    have hpure : Edit.lookUp (.ok found) = pure found := rfl
    rw [hpure, gives_pure, Except.ok.injEq, eq_comm]
  | error error =>
    have hthrow : Edit.lookUp (.error error : Except FormatError α) =
        throw (.malformed error) := rfl
    rw [hthrow]
    constructor
    · intro h
      exact absurd h gives_throw
    · rintro ⟨⟨⟩, -⟩

theorem gives_lookUp_bind {looked : Except FormatError α} {next : α → Edit β} :
    Gives (Edit.lookUp looked >>= next) work result after ↔
      ∃ value, looked = .ok value ∧ Gives (next value) work result after := by
  rw [gives_bind]
  constructor
  · rintro ⟨value, middle, hlooked, hnext⟩
    obtain ⟨hvalue, rfl⟩ := gives_lookUp.mp hlooked
    exact ⟨value, hvalue, hnext⟩
  · rintro ⟨value, hvalue, hnext⟩
    exact ⟨value, work, gives_lookUp.mpr ⟨hvalue, rfl⟩, hnext⟩

/-- A change of the pool stays in effect, and its result decides. -/
theorem gives_changePool {change : PoolChange α} :
    Gives (Edit.changePool change) work value after ↔
      ∃ pool, Gives change work.file.pool value pool ∧
        after = { work with file := { work.file with pool } } := by
  have hrun : (Edit.changePool change).run work =
      (Edit.lookUp (change.run work.file.pool).1).run
        { work with file := { work.file with pool := (change.run work.file.pool).2 } } := rfl
  rw [Gives, hrun]
  change Gives (Edit.lookUp _) _ value after ↔ _
  rw [gives_lookUp]
  simp only [gives_iff]
  constructor
  · rintro ⟨hvalue, hafter⟩
    exact ⟨_, ⟨hvalue, rfl⟩, hafter⟩
  · rintro ⟨_, ⟨hvalue, rfl⟩, hafter⟩
    exact ⟨hvalue, hafter⟩

theorem run_logged (action : Logged FormatError α) (work : Workpiece) :
    (Edit.logged action).run work = (Edit.lookUp (action.run work.log).1).run
      { work with log := (action.run work.log).2 } := rfl

theorem gives_logged {action : Logged FormatError α} :
    Gives (Edit.logged action) work value after ↔
      ∃ log, Gives action work.log value log ∧ after = { work with log } := by
  rw [Gives, run_logged]
  change Gives (Edit.lookUp _) _ value after ↔ _
  rw [gives_lookUp]
  simp only [gives_iff]
  constructor
  · rintro ⟨hvalue, hafter⟩
    exact ⟨_, ⟨hvalue, rfl⟩, hafter⟩
  · rintro ⟨_, ⟨hvalue, rfl⟩, hafter⟩
    exact ⟨hvalue, hafter⟩

/-- A report that is made on a condition comes before what follows in any case. -/
theorem gives_report_if {reports : Prop} [Decidable reports] {event : Event}
    {next : Unit → Edit β} :
    Gives (if reports then Edit.report event >>= next else next ()) work result after ↔
      Gives (next ()) { work with log := if reports then work.log.push event else work.log }
        result after := by
  split
  · exact gives_bind_of (gives_report.mpr rfl)
  · rfl

/-- A test of all items that changes nothing passes if each item does. -/
theorem gives_forM {items : List α} {test : α → Edit Unit} {passes : α → Prop}
    (h : ∀ item ∈ items, ∀ work after : Workpiece,
      Gives (test item) work () after ↔ passes item ∧ after = work) :
    Gives (items.forM test) work () after ↔ (∀ item ∈ items, passes item) ∧ after = work := by
  induction items with
  | nil =>
    have hpure : ([] : List α).forM test = pure () := rfl
    rw [hpure, gives_pure]
    exact and_congr (iff_of_true rfl (List.forall_mem_nil _)) Iff.rfl
  | cons item items ih =>
    obtain ⟨hitem, hitems⟩ := List.forall_mem_cons.mp h
    have hcons : (item :: items).forM test = test item >>= fun _ => items.forM test := rfl
    rw [hcons, gives_bind, List.forall_mem_cons]
    constructor
    · rintro ⟨_, middle, hfirst, hrest⟩
      obtain ⟨hpasses, rfl⟩ := (hitem work middle).mp hfirst
      obtain ⟨hall, hafter⟩ := (ih hitems).mp hrest
      exact ⟨⟨hpasses, hall⟩, hafter⟩
    · rintro ⟨⟨hpasses, hall⟩, hafter⟩
      exact ⟨(), work, (hitem work work).mpr ⟨hpasses, rfl⟩, (ih hitems).mpr ⟨hall, hafter⟩⟩

section failures

variable {error : RevisionError}

theorem fails_file_bind {next : ClassFile → Edit β} :
    Fails (Edit.file >>= next) work error ↔ Fails (next work.file) work error :=
  Iff.rfl

theorem fails_change_bind {f : ClassFile → ClassFile} {next : Unit → Edit β} :
    Fails (Edit.change f >>= next) work error ↔
      Fails (next ()) { work with file := f work.file } error :=
  Iff.rfl

theorem fails_lookUp_bind {looked : Except FormatError α} {next : α → Edit β}
    (hlooked : looked = .ok value) :
    Fails (Edit.lookUp looked >>= next) work error ↔ Fails (next value) work error :=
  fails_bind_of (gives_lookUp.mpr ⟨hlooked, rfl⟩)

theorem fails_report_if {reports : Prop} [Decidable reports] {event : Event}
    {next : Unit → Edit β} :
    Fails (if reports then Edit.report event >>= next else next ()) work error ↔
      Fails (next ()) { work with log := if reports then work.log.push event else work.log }
        error := by
  split
  · exact fails_bind_of (gives_report.mpr rfl)
  · rfl

/-- What a change of the pool fails with is taken for a fault of the class. -/
theorem fails_changePool {change : PoolChange α} {cause : FormatError}
    (h : Fails change work.file.pool cause) :
    Fails (Edit.changePool change) work (.malformed cause) := by
  have hrun : (Edit.changePool change).run work =
      (Edit.lookUp (change.run work.file.pool).1).run
        { work with file := { work.file with pool := (change.run work.file.pool).2 } } := rfl
  rw [Fails] at h
  rw [Fails, hrun, h]
  rfl

/-- A test of all items that changes nothing passes or fails as the first item that fails does. -/
theorem gives_or_fails_forM {items : List α} {test : α → Edit Unit}
    {refused : RevisionError → Prop}
    (h : ∀ item ∈ items, Gives (test item) work () work ∨
      ∃ error, refused error ∧ Fails (test item) work error) :
    Gives (items.forM test) work () work ∨
      ∃ error, refused error ∧ Fails (items.forM test) work error := by
  induction items with
  | nil => exact .inl (gives_pure.mpr ⟨rfl, rfl⟩)
  | cons item items ih =>
    obtain ⟨hitem, hitems⟩ := List.forall_mem_cons.mp h
    have hcons : (item :: items).forM test = test item >>= fun _ => items.forM test := rfl
    rw [hcons]
    rcases hitem with hgives | ⟨error, hrefused, hfails⟩
    · rcases ih hitems with hrest | ⟨error, hrefused, hrest⟩
      · exact .inl ((gives_bind_of hgives).mpr hrest)
      · exact .inr ⟨error, hrefused, (fails_bind_of hgives).mpr hrest⟩
    · exact .inr ⟨error, hrefused, hfails.bind⟩

end failures

section leaves

variable {holds : Workpiece → Prop}

theorem leaves_file_bind {next : ClassFile → Edit β} :
    Leaves (Edit.file >>= next) work holds ↔ Leaves (next work.file) work holds :=
  Iff.rfl

theorem leaves_change {f : ClassFile → ClassFile} :
    Leaves (Edit.change f) work holds ↔ holds { work with file := f work.file } :=
  Iff.rfl

theorem leaves_change_bind {f : ClassFile → ClassFile} {next : Unit → Edit β} :
    Leaves (Edit.change f >>= next) work holds ↔
      Leaves (next ()) { work with file := f work.file } holds :=
  Iff.rfl

theorem leaves_report_bind {event : Event} {next : Unit → Edit β} :
    Leaves (Edit.report event >>= next) work holds ↔
      Leaves (next ()) (work.reported event) holds :=
  Iff.rfl

/-- Looking something up changes nothing, whether it is found or not. -/
theorem leaves_lookUp_bind {looked : Except FormatError α} {next : α → Edit β} (h : holds work)
    (hnext : ∀ value, looked = .ok value → Leaves (next value) work holds) :
    Leaves (Edit.lookUp looked >>= next) work holds := by
  cases looked with
  | error error => exact h
  | ok value => exact hnext value rfl

theorem leaves_changePool {change : PoolChange α} :
    Leaves (Edit.changePool change) work holds ↔
      holds { work with file := { work.file with pool := (change.run work.file.pool).2 } } := by
  have hrun : (Edit.changePool change).run work =
      (Edit.lookUp (change.run work.file.pool).1).run
        { work with file := { work.file with pool := (change.run work.file.pool).2 } } := rfl
  rw [Leaves, hrun]
  cases (change.run work.file.pool).1 <;> exact Iff.rfl

theorem leaves_report_if {reports : Prop} [Decidable reports] {event : Event}
    {next : Unit → Edit β} :
    Leaves (if reports then Edit.report event >>= next else next ()) work holds ↔
      Leaves (next ()) { work with log := if reports then work.log.push event else work.log }
        holds := by
  split
  · exact leaves_report_bind
  · rfl

end leaves

section agreement

variable {α' β' : Type} {work' : Workpiece} {agree : α → Workpiece → α' → Workpiece → Prop}

theorem agree_file_bind {next : ClassFile → Edit α} {next' : ClassFile → Edit α'} :
    Agree (Edit.file >>= next) work (Edit.file >>= next') work' agree ↔
      Agree (next work.file) work (next' work'.file) work' agree :=
  Iff.rfl

theorem agree_change_bind {f : ClassFile → ClassFile} {next : Unit → Edit α}
    {next' : Unit → Edit α'} :
    Agree (Edit.change f >>= next) work (Edit.change f >>= next') work' agree ↔
      Agree (next ()) { work with file := f work.file } (next' ())
        { work' with file := f work'.file } agree :=
  Iff.rfl

theorem agree_report_bind {event : Event} {next : Unit → Edit α} {next' : Unit → Edit α'} :
    Agree (Edit.report event >>= next) work (Edit.report event >>= next') work' agree ↔
      Agree (next ()) (work.reported event) (next' ()) (work'.reported event) agree :=
  Iff.rfl

theorem agree_report_if {reports : Prop} [Decidable reports] {event : Event}
    {next : Unit → Edit α} {next' : Unit → Edit α'} :
    Agree (if reports then Edit.report event >>= next else next ()) work
        (if reports then Edit.report event >>= next' else next' ()) work' agree ↔
      Agree (next ()) { work with log := if reports then work.log.push event else work.log }
        (next' ()) { work' with log := if reports then work'.log.push event else work'.log }
        agree := by
  split
  · exact agree_report_bind
  · rfl

/-- What is looked up is the same for both, whether it is found or not. -/
theorem agree_lookUp_bind {looked looked' : Except FormatError β} {next : β → Edit α}
    {next' : β → Edit α'} (hsame : looked' = looked)
    (hnext : ∀ value, looked = .ok value → Agree (next value) work (next' value) work' agree) :
    Agree (Edit.lookUp looked >>= next) work (Edit.lookUp looked' >>= next') work' agree := by
  subst hsame
  cases looked' with
  | error error => exact .inr ⟨.malformed error, rfl, rfl⟩
  | ok value => exact hnext value rfl

/-- Made to the same pool, a change of it comes to the same. -/
theorem agree_changePool {change : PoolChange α}
    (hpool : work'.file.pool = work.file.pool) :
    Agree (Edit.changePool change) work (Edit.changePool change) work'
      fun value after value' after' => value' = value ∧ ∃ pool,
        Gives change work.file.pool value pool ∧
        after = { work with file := { work.file with pool } } ∧
        after' = { work' with file := { work'.file with pool } } := by
  cases hresult : (change.run work.file.pool).1 with
  | error error =>
    have hfails : Fails change work.file.pool error := hresult
    exact .inr ⟨.malformed error, fails_changePool hfails, fails_changePool (hpool ▸ hfails)⟩
  | ok value =>
    have hgives : Gives change work.file.pool value (change.run work.file.pool).2 :=
      gives_iff.mpr ⟨hresult, rfl⟩
    exact .inl ⟨value, _, value, _, gives_changePool.mpr ⟨_, hgives, rfl⟩,
      gives_changePool.mpr ⟨_, hpool ▸ hgives, rfl⟩, rfl, _, hgives, rfl, rfl⟩

end agreement

end Edit

/-- The workpiece as it would be had there been other events before. -/
def Workpiece.since (earlier : Array Event) (work : Workpiece) : Workpiece :=
  { work with log := earlier ++ work.log }

section commutes

variable {earlier : Array Event}

theorem commutes_log_report {ε : Type} (event : Event) :
    Commutes (earlier ++ ·) (Logged.report event : Logged ε Unit) :=
  commutes_modify fun _ => Array.push_append

namespace Edit

theorem commutes_file : Commutes (Workpiece.since earlier) Edit.file := fun _ => rfl

theorem commutes_change (f : ClassFile → ClassFile) :
    Commutes (Workpiece.since earlier) (Edit.change f) :=
  commutes_modify fun _ => rfl

theorem commutes_report (event : Event) :
    Commutes (Workpiece.since earlier) (Edit.report event) :=
  commutes_modify fun work => congrArg (Workpiece.mk work.file) Array.push_append

theorem commutes_lookUp (looked : Except FormatError α) :
    Commutes (Workpiece.since earlier) (Edit.lookUp looked) := by
  cases looked with
  | error error => exact commutes_throw _
  | ok value => exact commutes_pure value

theorem commutes_changePool (change : PoolChange α) :
    Commutes (Workpiece.since earlier) (Edit.changePool change) := by
  intro work
  exact commutes_lookUp (change.run work.file.pool).1
    { work with file := { work.file with pool := (change.run work.file.pool).2 } }

/-- Reports that do not depend on those before them do not do so as part of an edit. -/
theorem commutes_logged {action : Logged FormatError α} (h : Commutes (earlier ++ ·) action) :
    Commutes (Workpiece.since earlier) (Edit.logged action) := by
  intro work
  rw [run_logged, run_logged, Workpiece.since, h work.log]
  exact commutes_lookUp (action.run work.log).1 { work with log := (action.run work.log).2 }

end Edit

end commutes

end ClassThaw
