import ClassThaw.Settings

namespace ClassThaw

/-- Settings as a file has them, with one of the ways of matching that have a name. -/
structure Configuration extends HolderNames where
  matching : Matching := .substring
  openEnums : Bool := true
  deriving DecidableEq, Repr

namespace Configuration

def rules (config : Configuration) : HolderRules :=
  { config with strategy := config.matching.accepts }

def settings (config : Configuration) (debug : Bool) : Settings :=
  { config.rules with openEnums := config.openEnums, debug }

end Configuration

end ClassThaw
