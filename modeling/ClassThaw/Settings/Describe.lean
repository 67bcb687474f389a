import ClassThaw.Settings
import ClassThaw.Text.Invisible

namespace ClassThaw

/-- A character as it stands between quotes in diagnostics. -/
def inspectedChar (char : Char) : List Char :=
  if char = '\x00' then ['\\', '0']
  else if char = '\t' then ['\\', 't']
  else if char = '\r' then ['\\', 'r']
  else if char = '\n' then ['\\', 'n']
  else if char = '"' then ['\\', '"']
  else if char = '\\' then ['\\', '\\']
  else if isInvisible char then
    ['\\', 'u', '\x7b'] ++ Nat.toDigits 16 char.toNat ++ ['\x7d']
  else [char]

def inspected (text : String) : String :=
  "\"" ++ String.ofList (text.toList.flatMap inspectedChar) ++ "\""

/-- The settings as a line of diagnostics. -/
def Settings.describe (settings : Settings) : String :=
  "ClassTransformer \x7b matcher: HolderMatcher \x7b forced_classes: [" ++
    ", ".intercalate (settings.forcedClasses.map inspected) ++
    "], object_holder: " ++ inspected settings.objectHolder ++
    ", item_stack_holder: " ++ inspected settings.itemStackHolder ++
    ", .. \x7d, extensible_enums: " ++ (if settings.openEnums then "true" else "false") ++
    " \x7d"

end ClassThaw
