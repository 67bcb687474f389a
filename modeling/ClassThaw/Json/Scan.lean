/-! The functions take what they read off a list of characters and return the rest, or nothing if
the text is not JSON there. -/

namespace ClassThaw.Json.Scan

def isBlank (char : Char) : Bool :=
  char == ' ' || char == '\n' || char == '\t' || char == '\r'

def skipBlanks (text : List Char) : List Char := text.dropWhile isBlank

/-- The text after a token, which blanks may precede. -/
def token? (token : List Char) (text : List Char) : Option (List Char) :=
  let rest := skipBlanks text
  if token.isPrefixOf rest then some (rest.drop token.length) else none

def hexValue? (char : Char) : Option Nat :=
  if '0' ≤ char ∧ char ≤ '9' then some (char.toNat - '0'.toNat)
  else if 'a' ≤ char ∧ char ≤ 'f' then some (char.toNat - 'a'.toNat + 10)
  else if 'A' ≤ char ∧ char ≤ 'F' then some (char.toNat - 'A'.toNat + 10)
  else none

def hex4? (a b c d : Char) : Option Nat := do
  return (((← hexValue? a) * 16 + (← hexValue? b)) * 16 + (← hexValue? c)) * 16 + (← hexValue? d)

/-- The character that a letter stands for after a backslash. -/
def escaped? : Char → Option Char
  | '"' => some '"'
  | '\\' => some '\\'
  | '/' => some '/'
  | 'b' => some '\x08'
  | 'f' => some '\x0C'
  | 'n' => some '\n'
  | 'r' => some '\r'
  | 't' => some '\t'
  | _ => none

/-- The character of a first and a second surrogate. -/
def pair? (high low : Nat) : Option Char :=
  if 0xD800 ≤ high ∧ high < 0xDC00 ∧ 0xDC00 ≤ low ∧ low < 0xE000 then
    some (Char.ofNat (0x10000 + (high - 0xD800) * 0x400 + (low - 0xDC00)))
  else
    none

/-- Reads the rest of a string after the characters in `read`, which has the last one first. A code
after `\u` that is a surrogate must be the first of a pair. -/
def textAfter? (read : List Char) : List Char → Option (String × List Char)
  | [] => none
  | '"' :: rest => some (String.ofList read.reverse, rest)
  | '\\' :: 'u' :: a :: b :: c :: d :: rest =>
    match hex4? a b c d with
    | none => none
    | some code =>
      if code.isValidChar then
        textAfter? (Char.ofNat code :: read) rest
      else
        match rest with
        | '\\' :: 'u' :: a :: b :: c :: d :: rest =>
          match (hex4? a b c d).bind (pair? code) with
          | none => none
          | some char => textAfter? (char :: read) rest
        | _ => none
  | '\\' :: letter :: rest =>
    match escaped? letter with
    | none => none
    | some char => textAfter? (char :: read) rest
  | char :: rest =>
    if char = '\\' ∨ char.toNat < 0x20 then none else textAfter? (char :: read) rest

def text? (text : List Char) : Option (String × List Char) := do
  textAfter? [] (← token? ['"'] text)

def bool? (text : List Char) : Option (Bool × List Char) :=
  match token? "true".toList text with
  | some rest => some (true, rest)
  | none => (token? "false".toList text).map fun rest => (false, rest)

/-- The text after the rest of a string. Codes after `\u` may be any. -/
def skipText : List Char → Option (List Char)
  | [] => none
  | '"' :: rest => some rest
  | '\\' :: 'u' :: a :: b :: c :: d :: rest =>
    if [a, b, c, d].all fun char => (hexValue? char).isSome then skipText rest else none
  | '\\' :: letter :: rest => if (escaped? letter).isSome then skipText rest else none
  | char :: rest => if char = '\\' ∨ char.toNat < 0x20 then none else skipText rest

/-- The text after one or more digits. -/
def skipDigits : List Char → Option (List Char)
  | [] => none
  | char :: rest => if char.isDigit then some (rest.dropWhile Char.isDigit) else none

/-- The text after digits of which none follows a leading zero. -/
def skipWhole : List Char → Option (List Char)
  | '0' :: rest => if (rest.headD ' ').isDigit then none else some rest
  | text => skipDigits text

def skipFraction : List Char → Option (List Char)
  | '.' :: rest => skipDigits rest
  | text => some text

def skipSign : List Char → List Char
  | '+' :: rest | '-' :: rest => rest
  | text => text

def skipExponent : List Char → Option (List Char)
  | 'e' :: rest | 'E' :: rest => skipDigits (skipSign rest)
  | text => some text

def skipNumber (text : List Char) : Option (List Char) := do
  let rest ← skipWhole (match text with | '-' :: rest => rest | _ => text)
  skipExponent (← skipFraction rest)

/-- The text after a value that holds no other values. -/
def skipScalar (text : List Char) : Option (List Char) :=
  match text with
  | '"' :: rest => skipText rest
  | 'n' :: _ => token? "null".toList text
  | 't' :: _ => token? "true".toList text
  | 'f' :: _ => token? "false".toList text
  | _ => skipNumber text

def skipKey (text : List Char) : Option (List Char) := do
  let rest ← token? ['"'] text
  token? [':'] (← skipText rest)

/-- What holds the values that are being skipped. -/
inductive Frame where
  | array
  | object
  deriving DecidableEq, Repr

/-- The text after the values that are still open, in at most `fuel` steps. The innermost is the
first in `open`; `complete` says that a value has just ended, and otherwise one begins. -/
def skipOpen : (fuel : Nat) → (complete : Bool) → (frames : List Frame) → List Char →
    Option (List Char)
  | 0, _, _, _ => none
  | _ + 1, true, [], text => some text
  | fuel + 1, true, frame :: frames, text =>
    match frame, skipBlanks text with
    | .array, ',' :: rest => skipOpen fuel false (.array :: frames) rest
    | .array, ']' :: rest => skipOpen fuel true frames rest
    | .object, ',' :: rest => do
      let rest ← skipKey rest
      skipOpen fuel false (.object :: frames) rest
    | .object, '\x7d' :: rest => skipOpen fuel true frames rest
    | _, _ => none
  | fuel + 1, false, frames, text =>
    match skipBlanks text with
    | '[' :: rest =>
      match token? [']'] rest with
      | some rest => skipOpen fuel true frames rest
      | none => skipOpen fuel false (.array :: frames) rest
    | '\x7b' :: rest =>
      match token? ['\x7d'] rest with
      | some rest => skipOpen fuel true frames rest
      | none => do
        let rest ← skipKey rest
        skipOpen fuel false (.object :: frames) rest
    | text => do
      let rest ← skipScalar text
      skipOpen fuel true frames rest

/-- The text after a value. Every step takes a character off the text, except the last, so `limit`
is to be more than the length of the text. -/
def skipValue (limit : Nat) (text : List Char) : Option (List Char) :=
  skipOpen limit false [] text

/-- Reads the items of a list whose bracket has been read, up to `fuel` of them, after those in
`read`, which has the last one first. -/
def itemsAfter? {α : Type} (item? : List Char → Option (α × List Char)) :
    (fuel : Nat) → (read : List α) → List Char → Option (List α × List Char)
  | 0, _, _ => none
  | fuel + 1, read, text => do
    let (item, rest) ← item? text
    match skipBlanks rest with
    | ',' :: rest => itemsAfter? item? fuel (item :: read) rest
    | ']' :: rest => some ((item :: read).reverse, rest)
    | _ => none

def list? {α : Type} (item? : List Char → Option (α × List Char)) (text : List Char) :
    Option (List α × List Char) := do
  let rest ← token? ['['] text
  match token? [']'] rest with
  | some rest => some ([], rest)
  | none => itemsAfter? item? rest.length [] rest

end ClassThaw.Json.Scan
