namespace ClassThaw

/-- A JSON value. The members of an object are in the order in which they are written. -/
inductive Json where
  | null
  | bool (value : Bool)
  | number (value : Nat)
  | string (text : String)
  | array (values : List Json)
  | object (members : List (String × Json))
  deriving Repr

namespace Json

def strings (texts : List String) : Json := .array (texts.map .string)

def hexDigit (value : Nat) : Char := (Nat.toDigits 16 value).headD '0'

/-- A character as it stands between quotes. Only quotes, backslashes and control characters take
another form. -/
def escape (char : Char) : List Char :=
  if char = '"' then ['\\', '"']
  else if char = '\\' then ['\\', '\\']
  else if char = '\n' then ['\\', 'n']
  else if char = '\r' then ['\\', 'r']
  else if char = '\t' then ['\\', 't']
  else if char = '\x08' then ['\\', 'b']
  else if char = '\x0C' then ['\\', 'f']
  else if char.toNat < 0x20 then
    ['\\', 'u', '0', '0', hexDigit (char.toNat / 16), hexDigit (char.toNat % 16)]
  else [char]

def quote (text : String) : String :=
  "\"" ++ String.ofList (text.toList.flatMap escape) ++ "\""

/-- The start of a line at a level. -/
def newLine (level : Nat) : String := "\n" ++ String.ofList (List.replicate (2 * level) ' ')

mutual

/-- Appends the form of a value that begins at a level. -/
def printOnto (level : Nat) (out : String) : Json → String
  | .null => out ++ "null"
  | .bool value => out ++ (if value then "true" else "false")
  | .number value => out ++ toString value
  | .string text => out ++ quote text
  | .array [] => out ++ "[]"
  | .array (value :: values) =>
    let out := printOnto (level + 1) (out ++ "[" ++ newLine (level + 1)) value
    printValuesOnto level out values ++ newLine level ++ "]"
  | .object [] => out ++ "\x7b\x7d"
  | .object ((key, value) :: members) =>
    let out := out ++ "\x7b" ++ newLine (level + 1) ++ quote key ++ ": "
    let out := printOnto (level + 1) out value
    printMembersOnto level out members ++ newLine level ++ "\x7d"

def printValuesOnto (level : Nat) (out : String) : List Json → String
  | [] => out
  | value :: values =>
    let out := printOnto (level + 1) (out ++ "," ++ newLine (level + 1)) value
    printValuesOnto level out values

def printMembersOnto (level : Nat) (out : String) : List (String × Json) → String
  | [] => out
  | (key, value) :: members =>
    let out := out ++ "," ++ newLine (level + 1) ++ quote key ++ ": "
    let out := printOnto (level + 1) out value
    printMembersOnto level out members

end

def pretty (json : Json) : String := printOnto 0 "" json

end Json

end ClassThaw
