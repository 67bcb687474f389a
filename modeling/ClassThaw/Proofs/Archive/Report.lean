import ClassThaw.Archive.Report
import Mathlib.Algebra.Ring.Nat
import Mathlib.Data.List.Nodup

namespace ClassThaw

theorem Mutation.mem_all (kind : Mutation) : kind ∈ all := by
  cases kind <;> decide

namespace Mutations

variable {mutations : Mutations} {kind : Mutation} {count : Nat}

theorem mem_toList_iff :
    (kind, count) ∈ mutations.toList ↔ 0 < count ∧ count = mutations.count kind := by
  simp only [toList, List.mem_filter, List.mem_map, Prod.mk.injEq, decide_eq_true_eq]
  constructor
  · rintro ⟨⟨_, -, rfl, rfl⟩, hpositive⟩
    exact ⟨hpositive, rfl⟩
  · rintro ⟨hpositive, rfl⟩
    exact ⟨⟨kind, kind.mem_all, rfl, rfl⟩, hpositive⟩

/-- The kinds that are not listed have no edits. -/
theorem sum_toList (mutations : Mutations) (kind : Mutation) :
    ((mutations.toList.filter (·.1 = kind)).map Prod.snd).sum = mutations.count kind := by
  have hdropped (edits : List (Mutation × Nat)) :
      ((edits.filter (0 < ·.2)).map Prod.snd).sum = (edits.map Prod.snd).sum := by
    induction edits with
    | nil => rfl
    | cons edit edits ih =>
      rw [List.filter_cons, List.map_cons, List.sum_cons, ← ih]
      split
      case isTrue => rw [List.map_cons, List.sum_cons]
      case isFalse hnone =>
        rw [decide_eq_true_iff, Nat.pos_iff_ne_zero, not_not] at hnone
        rw [hnone, Nat.zero_add]
  rw [toList, List.filter_comm, hdropped]
  cases kind <;> rfl

end Mutations

namespace MutationCounts

variable {counts : MutationCounts} {kind : Mutation}

/-- The number of edits of a kind, which is zero where none have been counted. -/
def count (counts : MutationCounts) (kind : Mutation) : Nat := counts[kind]?.getD 0

/-- No kind is counted of which there are no edits. -/
def IsPositive (counts : MutationCounts) : Prop :=
  ∀ (kind : Mutation) (count : Nat), counts[kind]? = some count → 0 < count

theorem getElem?_add (counts : MutationCounts) (edit : Mutation × Nat) (kind : Mutation) :
    (counts.add edit)[kind]? =
      if edit.1 = kind then some (counts.count kind + edit.2) else counts[kind]? := by
  rw [add, Std.ExtTreeMap.getElem?_alter]
  simp only [Std.LawfulEqOrd.compare_eq_iff_eq]
  split
  case isTrue h => rw [count, h]
  case isFalse => rfl

theorem count_add (counts : MutationCounts) (edit : Mutation × Nat) (kind : Mutation) :
    (counts.add edit).count kind =
      counts.count kind + (([edit].filter (·.1 = kind)).map Prod.snd).sum := by
  rw [count, getElem?_add]
  by_cases h : edit.1 = kind <;> simp [h, count]

theorem count_foldl_add (counts : MutationCounts) (edits : List (Mutation × Nat))
    (kind : Mutation) : (edits.foldl add counts).count kind =
      counts.count kind + ((edits.filter (·.1 = kind)).map Prod.snd).sum := by
  induction edits generalizing counts with
  | nil => rfl
  | cons edit edits ih =>
    rw [List.foldl_cons, ih, count_add, Nat.add_assoc, ← List.sum_append, ← List.map_append,
      ← List.filter_append, List.singleton_append]

theorem IsPositive.add {edit : Mutation × Nat} (h : counts.IsPositive) (hedit : 0 < edit.2) :
    (counts.add edit).IsPositive := by
  intro kind count hcount
  rw [getElem?_add] at hcount
  split at hcount
  case isTrue =>
    cases hcount
    omega
  case isFalse => exact h kind count hcount

theorem IsPositive.foldl_add {edits : List (Mutation × Nat)} (h : counts.IsPositive)
    (hedits : ∀ edit ∈ edits, 0 < edit.2) : (edits.foldl MutationCounts.add counts).IsPositive := by
  induction edits generalizing counts with
  | nil => exact h
  | cons edit edits ih =>
    obtain ⟨hedit, hedits⟩ := List.forall_mem_cons.mp hedits
    exact ih (h.add hedit) hedits

theorem isPositive_empty : (∅ : MutationCounts).IsPositive := by
  intro kind count h
  cases h

theorem getElem?_eq_some_iff {number : Nat} (h : counts.IsPositive) :
    counts[kind]? = some number ↔ 0 < number ∧ number = counts.count kind := by
  rw [count]
  cases hfound : counts[kind]? with
  | none =>
    rw [Option.getD_none]
    refine iff_of_false (Option.some_ne_none number).symm ?_
    omega
  | some found =>
    rw [Option.getD_some, Option.some.injEq]
    refine ⟨?_, fun h => h.2.symm⟩
    rintro rfl
    exact ⟨h kind found hfound, rfl⟩

theorem nodup_toList (counts : MutationCounts) : counts.toList.Nodup := by
  refine (Std.ExtTreeMap.distinct_keys_toList (t := counts)).imp ?_
  rintro edit _ hdistinct rfl
  exact hdistinct Std.ReflOrd.compare_self

/-- The kinds that are counted are those that are found, each of them once. -/
theorem perm_toList (counts : MutationCounts) : counts.toList.Perm
    (Mutation.all.filterMap fun kind => counts[kind]?.map (kind, ·)) := by
  refine (List.perm_ext_iff_of_nodup counts.nodup_toList ?_).mpr ?_
  · refine List.Nodup.filterMap ?_ (by decide)
    rintro kind kind' edit hmem hmem'
    obtain ⟨_, -, rfl⟩ := Option.map_eq_some_iff.mp hmem
    obtain ⟨_, -, hsame⟩ := Option.map_eq_some_iff.mp hmem'
    exact (congrArg Prod.fst hsame).symm
  · rintro ⟨kind, number⟩
    rw [Std.ExtTreeMap.mem_toList_iff_getElem?_eq_some, List.mem_filterMap]
    constructor
    · intro hfound
      exact ⟨kind, kind.mem_all, Option.map_eq_some_iff.mpr ⟨number, hfound, rfl⟩⟩
    · rintro ⟨_, -, hmem⟩
      obtain ⟨_, hfound, hsame⟩ := Option.map_eq_some_iff.mp hmem
      cases hsame
      exact hfound

theorem total_eq_sum (counts : MutationCounts) :
    counts.total = (Mutation.all.map counts.count).sum := by
  have hsum (kinds : List Mutation) :
      ((kinds.filterMap fun kind => counts[kind]?.map (kind, ·)).map Prod.snd).sum =
        (kinds.map counts.count).sum := by
    induction kinds with
    | nil => rfl
    | cons kind kinds ih =>
      rw [List.map_cons, List.sum_cons, ← ih, count, List.filterMap_cons]
      cases counts[kind]? with
      | none => exact (Nat.zero_add _).symm
      | some number => rfl
  rw [total, Std.ExtTreeMap.foldl_eq_foldl_toList, ← hsum, ← (counts.perm_toList.map _).sum_nat,
    List.sum_eq_foldl, List.foldl_map]

/-- Counts that add up kind by kind add up in total. -/
theorem total_eq_sum_total {edits : List Mutations}
    (h : ∀ kind, counts.count kind = (edits.map (·.count kind)).sum) :
    counts.total = (edits.map Mutations.total).sum := by
  rw [total_eq_sum]
  -- The kinds are few, so the sum over them is written out.
  simp only [Mutation.all, List.map_cons, List.map_nil, List.sum_cons, List.sum_nil, h]
  clear h
  induction edits with
  | nil => rfl
  | cons mutations edits ih =>
    simp only [List.map_cons, List.sum_cons, ← ih, Mutations.total, Mutation.all, List.foldl_cons,
      List.foldl_nil]
    omega

end MutationCounts

namespace ArchiveReport

variable {report : ArchiveReport} {mutations : Mutations}

theorem count_record (report : ArchiveReport) (entry : String) (mutations : Mutations)
    (kind : Mutation) : (report.record entry mutations).mutations.count kind =
      report.mutations.count kind + mutations.count kind := by
  rw [record, MutationCounts.count_foldl_add, Mutations.sum_toList]

theorem isPositive_record (h : report.mutations.IsPositive) (entry : String)
    (mutations : Mutations) : (report.record entry mutations).mutations.IsPositive :=
  h.foldl_add fun _ hedit => (Mutations.mem_toList_iff.mp hedit).1

end ArchiveReport

end ClassThaw
