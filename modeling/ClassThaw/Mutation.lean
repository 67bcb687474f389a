namespace ClassThaw

inductive Mutation where
  | holderField
  | enumValues
  | enumConstructor
  | enumAppendMethod
  deriving DecidableEq, Ord, Repr

namespace Mutation

instance : Std.TransOrd Mutation where
  eq_swap {a b} := by cases a <;> cases b <;> rfl
  isLE_trans {a b c} := by cases a <;> cases b <;> cases c <;> decide

instance : Std.LawfulEqOrd Mutation where
  compare_self {a} := by cases a <;> rfl
  eq_of_compare {a b} := by cases a <;> cases b <;> decide

def all : List Mutation := [.holderField, .enumValues, .enumConstructor, .enumAppendMethod]

def label : Mutation → String
  | .holderField => "holder_field_unfinalized"
  | .enumValues => "enum_values_unfinalized"
  | .enumConstructor => "enum_constructor_opened"
  | .enumAppendMethod => "enum_append_method_added"

end Mutation

/-- What was done to open an enum. -/
structure EnumPatch where
  -- The field with the array of values lost `final`.
  valuesOpened : Bool := false
  -- How many constructors became public.
  constructorsOpened : Nat := 0
  -- The method that appends a value was added.
  appendAdded : Bool := false
  deriving DecidableEq, Repr

def EnumPatch.total (patch : EnumPatch) : Nat :=
  patch.valuesOpened.toNat + patch.constructorsOpened + patch.appendAdded.toNat

def EnumPatch.isEmpty (patch : EnumPatch) : Bool := patch.total == 0

/-- The edits made to a class. -/
structure Mutations where
  holderFields : Nat := 0
  enumPatch : EnumPatch := {}
  deriving DecidableEq, Repr

namespace Mutations

def count (mutations : Mutations) : Mutation → Nat
  | .holderField => mutations.holderFields
  | .enumValues => mutations.enumPatch.valuesOpened.toNat
  | .enumConstructor => mutations.enumPatch.constructorsOpened
  | .enumAppendMethod => mutations.enumPatch.appendAdded.toNat

def total (mutations : Mutations) : Nat :=
  Mutation.all.foldl (fun total kind => total + mutations.count kind) 0

def isEmpty (mutations : Mutations) : Bool := mutations.total == 0

/-- The kinds of edits that were made, with their counts. -/
def toList (mutations : Mutations) : List (Mutation × Nat) :=
  (Mutation.all.map fun kind => (kind, mutations.count kind)).filter (0 < ·.2)

end Mutations

end ClassThaw
