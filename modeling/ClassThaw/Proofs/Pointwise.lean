import ClassThaw.Proofs.Check
import Mathlib.Data.List.Forall2

namespace ClassThaw

open List

variable {α β γ : Type} {related : α → β → Prop} {items : List α} {items' : List β}

theorem forall₂_modify {f : β → β} (h : Forall₂ related items items')
    (hf : ∀ item item', related item item' → related item (f item')) (place : Nat) :
    Forall₂ related items (items'.modify place f) := by
  induction h generalizing place with
  | nil =>
    rw [modify_nil]
    exact .nil
  | cons hfirst hrest ih =>
    cases place with
    | zero =>
      rw [modify_zero_cons]
      exact .cons (hf _ _ hfirst) hrest
    | succ place =>
      rw [modify_succ_cons]
      exact .cons hfirst (ih place)

theorem forall₂_comp {related' : β → γ → Prop} {composed : α → γ → Prop} {items'' : List γ}
    (h : Forall₂ related items items') (h' : Forall₂ related' items' items'')
    (hcomp : ∀ item item' item'', related item item' → related' item' item'' →
      composed item item'') : Forall₂ composed items items'' := by
  induction h generalizing items'' with
  | nil =>
    cases h'
    exact .nil
  | cons hfirst _ ih =>
    cases h' with
    | cons hfirst' hrest' => exact .cons (hcomp _ _ _ hfirst hfirst') (ih hrest')

theorem exists_mem_of_forall₂ {item' : β} (h : Forall₂ related items items')
    (hitem' : item' ∈ items') : ∃ item ∈ items, related item item' := by
  induction h with
  | nil => cases hitem'
  | cons hfirst _ ih =>
    rcases mem_cons.mp hitem' with rfl | hrest
    · exact ⟨_, mem_cons_self, hfirst⟩
    · obtain ⟨item, hitem, hrelated⟩ := ih hrest
      exact ⟨item, mem_cons_of_mem _ hitem, hrelated⟩

theorem exists_getElem?_of_forall₂ {place : Nat} {item : α} (h : Forall₂ related items items')
    (hitem : items[place]? = some item) :
    ∃ item', items'[place]? = some item' ∧ related item item' := by
  induction h generalizing place with
  | nil => cases hitem
  | cons hfirst _ ih =>
    cases place with
    | zero =>
      obtain rfl := Option.some.inj hitem
      exact ⟨_, rfl, hfirst⟩
    | succ place => exact ih hitem

theorem any_eq_of_forall₂ {test : α → Bool} {test' : β → Bool} (h : Forall₂ related items items')
    (hsame : ∀ item item', related item item' → test' item' = test item) :
    items'.any test' = items.any test := by
  induction h with
  | nil => rfl
  | cons hfirst _ ih => rw [any_cons, any_cons, hsame _ _ hfirst, ih]

/-- What is picked by item and place is the same on both sides if it is so for each place. -/
theorem filterMap_zipIdx_eq_of_forall₂ {pick : α × Nat → Option γ} {pick' : β × Nat → Option γ}
    (h : Forall₂ related items items')
    (hsame : ∀ item item' place, related item item' → pick' (item', place) = pick (item, place))
    (start : Nat) :
    (items'.zipIdx start).filterMap pick' = (items.zipIdx start).filterMap pick := by
  induction h generalizing start with
  | nil => rfl
  | cons hfirst _ ih =>
    rw [zipIdx_cons, zipIdx_cons, filterMap_cons, filterMap_cons, hsame _ _ start hfirst, ih]

/-- To pick items with their places and then find one is to find the place of one of the items, if
whether it is found does not depend on the place. -/
theorem map_find?_filterMap_zipIdx {pick : α × Nat → Option β} {test : β → Bool} {place : β → Nat}
    {kind : α → Bool} {items : List α}
    (hplace : ∀ item index found, pick (item, index) = some found → place found = index)
    (hkind : ∀ item ∈ items, ∀ index, (pick (item, index)).any test = kind item) (start : Nat) :
    (((items.zipIdx start).filterMap pick).find? test).map place =
      (items.findIdx? kind).map (· + start) := by
  induction items generalizing start with
  | nil => rfl
  | cons item items ih =>
    obtain ⟨hitem, hitems⟩ := forall_mem_cons.mp hkind
    have hrest : (((items.zipIdx (start + 1)).filterMap pick).find? test).map place =
        ((items.findIdx? kind).map (· + 1)).map (· + start) := by
      rw [ih hitems, Option.map_map]
      refine congrArg (Option.map · _) (funext fun index => ?_)
      exact (Nat.add_right_comm index 1 start).symm
    rw [zipIdx_cons, filterMap_cons, findIdx?_cons, ← hitem start]
    cases hpick : pick (item, start) with
    | none => exact hrest
    | some found =>
      rw [find?_cons, Option.any_some]
      cases test found with
      | true => exact congrArg some ((hplace item start found hpick).trans (Nat.zero_add _).symm)
      | false => exact hrest

/-- Items that are all looked up are found place by place. -/
theorem mapM_eq_ok_iff {ε : Type} {look : α → Except ε β} {items : List α} {values : List β} :
    items.mapM look = .ok values ↔
      Forall₂ (fun item value => look item = .ok value) items values := by
  induction items generalizing values with
  | nil =>
    rw [mapM_nil, forall₂_nil_left_iff]
    constructor
    · rintro ⟨⟩
      rfl
    · rintro rfl
      rfl
  | cons item items ih =>
    rw [mapM_cons, bind_eq_ok_iff, forall₂_cons_left_iff]
    simp only [bind_eq_ok_iff, ih]
    constructor
    · rintro ⟨value, hvalue, rest, hrest, ⟨⟩⟩
      exact ⟨value, rest, hvalue, hrest, rfl⟩
    · rintro ⟨value, rest, hvalue, hrest, rfl⟩
      exact ⟨value, hvalue, rest, hrest, rfl⟩

theorem exists_of_mapM_eq_ok {ε : Type} {look : α → Except ε β} {items : List α} {values : List β}
    (h : items.mapM look = .ok values) {item : α} (hitem : item ∈ items) :
    ∃ value, look item = .ok value := by
  obtain ⟨place, hplace⟩ := getElem?_of_mem hitem
  obtain ⟨value, -, hvalue⟩ := exists_getElem?_of_forall₂ (mapM_eq_ok_iff.mp h) hplace
  exact ⟨value, hvalue⟩

theorem mem_of_mapM_eq_ok {ε : Type} {look : α → Except ε β} {items : List α} {values : List β}
    (h : items.mapM look = .ok values) {value : β} :
    value ∈ values ↔ ∃ item ∈ items, look item = .ok value := by
  have hfound := mapM_eq_ok_iff.mp h
  constructor
  · exact exists_mem_of_forall₂ hfound
  · rintro ⟨item, hitem, hvalue⟩
    obtain ⟨place, hplace⟩ := getElem?_of_mem hitem
    obtain ⟨value', hvalue', hlooked⟩ := exists_getElem?_of_forall₂ hfound hplace
    obtain rfl := Except.ok.inj (hlooked.symm.trans hvalue)
    exact mem_of_getElem? hvalue'

theorem map_eq_self {items : List α} {f : α → α} (h : ∀ item ∈ items, f item = item) :
    items.map f = items :=
  (map_congr_left h).trans (map_id' items)

theorem modify_map {f : α → β} {g : α → α} {g' : β → β} (h : ∀ item, g' (f item) = f (g item))
    (items : List α) (place : Nat) :
    (items.map f).modify place g' = (items.modify place g).map f := by
  induction items generalizing place with
  | nil => rw [map_nil, modify_nil, modify_nil, map_nil]
  | cons item items ih =>
    cases place with
    | zero => rw [map_cons, modify_zero_cons, modify_zero_cons, map_cons, h]
    | succ place => rw [map_cons, modify_succ_cons, modify_succ_cons, map_cons, ih]

theorem modify_eq_self {items : List α} {place : Nat} {f : α → α}
    (h : ∀ item, items[place]? = some item → f item = item) : items.modify place f = items := by
  -- Away from the place nothing changes, and at the place the change does nothing.
  apply ext_getElem?
  intro index
  rw [getElem?_modify]
  split
  case isFalse => exact Option.map_id'
  case isTrue hplace =>
    subst hplace
    cases hitem : items[place]? with
    | none => rfl
    | some item => exact congrArg some (h item hitem)

end ClassThaw
