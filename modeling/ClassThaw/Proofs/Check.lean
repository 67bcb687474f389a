import ClassThaw.FormatError

namespace ClassThaw

variable {ε α β : Type}

theorem ok_bind {value : α} {next : α → Except ε β} : (Except.ok value >>= next) = next value := rfl

theorem bind_eq_ok_iff {first : Except ε α} {next : α → Except ε β} {result : β} :
    (first >>= next) = .ok result ↔ ∃ value, first = .ok value ∧ next value = .ok result := by
  cases first with
  | error error => simp [Bind.bind, Except.bind]
  | ok value => simp [Bind.bind, Except.bind]

theorem check_bind_eq_ok_iff {first : Except ε Unit} {second : Except ε α} {result : α} :
    (first >>= fun _ => second) = .ok result ↔ first = .ok () ∧ second = .ok result := by
  rw [bind_eq_ok_iff]
  constructor
  · rintro ⟨_, hfirst, hsecond⟩
    exact ⟨hfirst, hsecond⟩
  · rintro ⟨hfirst, hsecond⟩
    exact ⟨(), hfirst, hsecond⟩

theorem check_forM_eq_ok_iff {items : List α} {check : α → Except ε Unit} :
    items.forM check = .ok () ↔ ∀ item ∈ items, check item = .ok () := by
  induction items with
  | nil => exact iff_of_true rfl (List.forall_mem_nil _)
  | cons item items ih =>
    change (check item >>= fun _ => items.forM check) = .ok () ↔ _
    rw [check_bind_eq_ok_iff, ih, List.forall_mem_cons]

/-- What a check does not look at can be changed in all items. -/
theorem forM_map_eq {items : List α} {f : α → α} {check : α → Except ε Unit}
    (h : ∀ item, check (f item) = check item) : (items.map f).forM check = items.forM check := by
  induction items with
  | nil => rfl
  | cons item items ih =>
    change (check (f item) >>= fun _ => (items.map f).forM check) =
      (check item >>= fun _ => items.forM check)
    rw [h, ih]

theorem exists_mapM {items : List α} {f : α → Except ε β}
    (h : ∀ item ∈ items, ∃ value, f item = .ok value) : ∃ values, items.mapM f = .ok values := by
  induction items with
  | nil => exact ⟨[], rfl⟩
  | cons item items ih =>
    obtain ⟨⟨value, hvalue⟩, hrest⟩ := List.forall_mem_cons.mp h
    obtain ⟨values, hvalues⟩ := ih hrest
    exact ⟨value :: values, by rw [List.mapM_cons, hvalue, hvalues]; rfl⟩

theorem mapM_congr_of_mem {items : List α} {f g : α → Except ε β}
    (h : ∀ item ∈ items, f item = g item) : items.mapM f = items.mapM g := by
  induction items with
  | nil => rfl
  | cons item items ih =>
    obtain ⟨hfirst, hrest⟩ := List.forall_mem_cons.mp h
    rw [List.mapM_cons, List.mapM_cons, hfirst, ih hrest]

/-- Looking through items without failure is the same as picking from them. -/
theorem filterMapM_eq_ok {items : List α} {look : α → Except ε (Option β)} {pick : α → Option β}
    (h : ∀ item ∈ items, look item = .ok (pick item)) :
    items.filterMapM look = .ok (items.filterMap pick) := by
  induction items with
  | nil => rfl
  | cons item items ih =>
    obtain ⟨hfirst, hrest⟩ := List.forall_mem_cons.mp h
    rw [List.filterMapM_cons, List.filterMap_cons, hfirst, ih hrest]
    -- An item that is not picked leaves no trace.
    cases pick item with
    | none => rfl
    | some value => rfl

/-- What has been found while looking through items is something that one of them looks like. -/
theorem exists_of_mem_filterMapM {items : List α} {look : α → Except ε (Option β)}
    {found : List β} (h : items.filterMapM look = .ok found) {value : β} (hmem : value ∈ found) :
    ∃ item ∈ items, look item = .ok (some value) := by
  induction items generalizing found with
  | nil =>
    obtain rfl := Except.ok.inj h
    cases hmem
  | cons item items ih =>
    rw [List.filterMapM_cons] at h
    obtain ⟨picked, hpicked, hrest⟩ := bind_eq_ok_iff.mp h
    cases picked with
    | none =>
      obtain ⟨other, hother, hlook⟩ := ih hrest hmem
      exact ⟨other, List.mem_cons_of_mem item hother, hlook⟩
    | some value' =>
      obtain ⟨rest, hfound, hcons⟩ := bind_eq_ok_iff.mp hrest
      obtain rfl := Except.ok.inj hcons
      rcases List.mem_cons.mp hmem with rfl | hlater
      · exact ⟨item, List.mem_cons_self, hpicked⟩
      · obtain ⟨other, hother, hlook⟩ := ih hfound hlater
        exact ⟨other, List.mem_cons_of_mem item hother, hlook⟩

/-- Items that look the same at their places are picked at the same places. -/
theorem filterMapM_zipIdx_map {items : List α} {f : α → α} {look : α × Nat → Except ε (Option β)}
    (h : ∀ item place, look (f item, place) = look (item, place)) (start : Nat) :
    ((items.map f).zipIdx start).filterMapM look = (items.zipIdx start).filterMapM look := by
  induction items generalizing start with
  | nil => rfl
  | cons item items ih =>
    rw [List.map_cons, List.zipIdx_cons, List.zipIdx_cons, List.filterMapM_cons,
      List.filterMapM_cons, h, ih]

end ClassThaw
