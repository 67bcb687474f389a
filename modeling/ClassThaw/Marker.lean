namespace ClassThaw

/-- The two annotations that mark fields whose values are set after class initialisation. -/
inductive Marker where
  -- Concerns the annotated field.
  | objectHolder
  -- Concerns every field of the class.
  | itemStackHolder
  deriving DecidableEq, Repr

def Marker.label : Marker → String
  | .objectHolder => "ObjectHolder"
  | .itemStackHolder => "ItemStackHolder"

/-- How an annotation's type descriptor is compared with a marker's fragment. -/
inductive Matching where
  -- The descriptor contains the fragment.
  | substring
  -- The descriptor is that of the type the fragment names, where `$` may stand for `/`.
  | exact
  deriving DecidableEq, Repr

namespace Matching

def label : Matching → String
  | .substring => "substring"
  | .exact => "exact"

def ofLabel? (word : String) : Option Matching :=
  [Matching.substring, .exact].find? (·.label == word)

def occursIn (fragment : List Char) : List Char → Bool
  | [] => fragment.isEmpty
  | char :: rest => fragment.isPrefixOf (char :: rest) || occursIn fragment rest

/-- A character of a descriptor spells a character of a fragment. -/
def spells (char fragment : Char) : Bool :=
  char == fragment || (char == '$' && fragment == '/')

/-- The text spells the fragment from its first to its last character. -/
def spellsAll : (text fragment : List Char) → Bool
  | [], [] => true
  | char :: text, char' :: fragment => spells char char' && spellsAll text fragment
  | _, _ => false

/-- The text spells the fragment between `L` and `;`, as the descriptor of a class does. -/
def isDescriptorOf (fragment : List Char) : List Char → Bool
  | 'L' :: rest => rest.getLast? == some ';' && spellsAll rest.dropLast fragment
  | _ => false

def accepts (matching : Matching) (fragment descriptor : String) : Bool :=
  match matching with
  | .substring => occursIn fragment.toList descriptor.toList
  | .exact => isDescriptorOf fragment.toList descriptor.toList

end Matching

end ClassThaw
