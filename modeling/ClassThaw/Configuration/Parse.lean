import ClassThaw.Configuration
import ClassThaw.Json.Scan

namespace ClassThaw

namespace Configuration

open Json.Scan

/-- The keys of settings, in the order of the list form. -/
inductive Key where
  | forcedClasses
  | objectHolder
  | itemStackHolder
  | matching
  | openEnums
  deriving DecidableEq, Repr

def Key.all : List Key :=
  [.forcedClasses, .objectHolder, .itemStackHolder, .matching, .openEnums]

def Key.label : Key → String
  | .forcedClasses => "forced_classes"
  | .objectHolder => "object_holder_marker"
  | .itemStackHolder => "item_stack_holder_marker"
  | .matching => "match_mode"
  | .openEnums => "extensible_enums"

/-- The way of matching that a word names, with what follows it. -/
def named? : String × List Char → Option (Matching × List Char)
  | (word, rest) => (Matching.ofLabel? word).map fun matching => (matching, rest)

/-- A way of matching: its word, or an object with the word as its key and `null` as its value. -/
def matching? (text : List Char) : Option (Matching × List Char) :=
  match token? ['\x7b'] text with
  | none => do named? (← text? text)
  | some rest => do
    let (matching, rest) ← named? (← text? rest)
    let rest ← token? "null".toList (← token? [':'] rest)
    return (matching, ← token? ['\x7d'] rest)

def readValue (config : Configuration) (key : Key) (text : List Char) :
    Option (Configuration × List Char) := do
  match key with
  | .forcedClasses =>
    let (forcedClasses, rest) ← list? text? text
    return ({ config with forcedClasses }, rest)
  | .objectHolder =>
    let (objectHolder, rest) ← text? text
    return ({ config with objectHolder }, rest)
  | .itemStackHolder =>
    let (itemStackHolder, rest) ← text? text
    return ({ config with itemStackHolder }, rest)
  | .matching =>
    let (matching, rest) ← matching? text
    return ({ config with matching }, rest)
  | .openEnums =>
    let (openEnums, rest) ← bool? text
    return ({ config with openEnums }, rest)

/-- Reads the members of an object whose brace has been read, up to `fuel` of them. The keys in
`remaining` have not occurred yet. No value takes more than `limit` steps. -/
def readMembers (limit : Nat) : (fuel : Nat) → (remaining : List Key) → Configuration → List Char →
    Option (Configuration × List Char)
  | 0, _, _, _ => none
  | fuel + 1, remaining, config, text => do
    let (word, rest) ← text? text
    let (remaining, config, rest) ←
      match Key.all.find? (·.label == word) with
      | none => do
        let rest ← skipValue limit (← token? [':'] rest)
        pure (remaining, config, rest)
      | some key =>
        if remaining.contains key then do
          let (config, rest) ← readValue config key (← token? [':'] rest)
          pure (remaining.erase key, config, rest)
        else
          none
    match skipBlanks rest with
    | ',' :: rest => readMembers limit fuel remaining config rest
    | '\x7d' :: rest => some (config, rest)
    | _ => none

/-- Reads the values of a list, one for each of the keys until the list ends. -/
def readItems : (keys : List Key) → Configuration → List Char → Option (Configuration × List Char)
  | [], _, _ => none
  | key :: keys, config, text => do
    let (config, rest) ← readValue config key text
    match skipBlanks rest with
    | ',' :: rest => readItems keys config rest
    | ']' :: rest => some (config, rest)
    | _ => none

/-- Settings are an object with the keys, each at most once, or a list with their values in the
same order. What is missing has its default; unknown keys are passed over. -/
def read (text : List Char) : Option (Configuration × List Char) :=
  match skipBlanks text with
  | '\x7b' :: rest =>
    match token? ['\x7d'] rest with
    | some rest => some (({} : Configuration), rest)
    | none => readMembers (rest.length + 1) rest.length Key.all {} rest
  | '[' :: rest =>
    match token? [']'] rest with
    | some rest => some (({} : Configuration), rest)
    | none => readItems Key.all {} rest
  | _ => none

/-- The settings that a text holds, if it holds nothing else. -/
def parse? (text : String) : Option Configuration := do
  let (config, rest) ← read text.toList
  if (skipBlanks rest).isEmpty then some config else none

end Configuration

end ClassThaw
