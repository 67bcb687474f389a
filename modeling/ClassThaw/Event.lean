import ClassThaw.Marker
import ClassThaw.RevisionError

namespace ClassThaw

inductive Level where
  | debug
  | info
  | error
  deriving DecidableEq, Repr

def Level.label : Level → String
  | .debug => "DEBUG"
  | .info => "INFO"
  | .error => "ERROR"

inductive Event where
  -- A field's marker makes all fields of its class holders.
  | escalated (marker : Marker) (field : String)
  | holdersOpened (count : Nat) (className : String)
  | enumLeftAlone (className reason : String)
  | enumOpened (className : String)
  | unchanged (className : String)
  -- The class was requested under the name `requested`.
  | failed (requested className : String) (error : RevisionError)
  | entryPatched (entry : String)
  | archiveRevised (modified seen : Nat) (source target : String)
  deriving DecidableEq, Repr

namespace Event

def level : Event → Level
  | .escalated _ _ | .enumLeftAlone _ _ | .unchanged _ | .entryPatched _ => .debug
  | .holdersOpened _ _ | .enumOpened _ | .archiveRevised _ _ _ _ => .info
  | .failed _ _ _ => .error

def message : Event → String
  | .escalated marker field => s!"{marker.label} field {field} escalates to the whole class"
  | .holdersOpened count className => s!"Unfinalized {count} Holder fields in {className}"
  | .enumLeftAlone className reason => s!"Enum {className} left alone: {reason}"
  | .enumOpened className => s!"Dynamicized enum {className}"
  | .unchanged className => s!"No changes to {className}"
  | .failed requested className error =>
    s!"Error when unfinalizing ObjectHolder transformer for {className} ({requested}): " ++
      error.message
  | .entryPatched entry => s!"Writing patched {entry}"
  | .archiveRevised modified seen source target =>
    s!"Rewrote {modified} of {seen} classes from {source} into {target}"

end Event

/-- A computation that reports events and may fail; the events before a failure are kept. -/
abbrev Logged (ε : Type) := ExceptT ε (StateM (Array Event))

def Logged.report {ε : Type} (event : Event) : Logged ε Unit := modify fun log => log.push event

end ClassThaw
