namespace ClassThaw

/-- An option with a value. -/
structure ValueOption where
  name : String
  -- The value is one that the option can have.
  accepts : String → Bool

/-- An option without a value. -/
structure Switch where
  name : String
  short? : Option Char := none
  deriving DecidableEq, Repr

/-- The arguments that a command takes. -/
structure Grammar where
  -- The least and the greatest number of operands.
  minOperands : Nat
  maxOperands : Nat
  values : List ValueOption
  switches : List Switch

structure Arguments where
  operands : Array String := #[]
  values : List (String × String) := []
  switches : List String := []
  deriving DecidableEq, Repr

/-- What the arguments ask for. -/
inductive Request where
  | run (arguments : Arguments)
  | help
  | version
  -- The arguments make no sense.
  | misuse
  deriving DecidableEq, Repr

namespace Arguments

def value? (arguments : Arguments) (name : String) : Option String :=
  arguments.values.lookup name

def has (arguments : Arguments) (name : String) : Bool := arguments.switches.contains name

def operand? (arguments : Arguments) (position : Nat) : Option String :=
  arguments.operands[position]?

end Arguments

namespace Grammar

def isPath (text : String) : Bool := !text.isEmpty

/-- The argument starts with a hyphen and something behind it. -/
def isOption (argument : String) : Bool := argument.startsWith "-" && argument ≠ "-"

/-- The name of a long option, and the value after an equals sign. -/
def splitLong (argument : List Char) : String × Option String :=
  let name := argument.takeWhile (· ≠ '=')
  match argument.drop name.length with
  | [] => (String.ofList name, none)
  | _ :: value => (String.ofList name, some (String.ofList value))

def addOperand (grammar : Grammar) (operand : String) (arguments : Arguments) :
    Except Request Arguments :=
  if arguments.operands.size < grammar.maxOperands ∧ isPath operand then
    .ok { arguments with operands := arguments.operands.push operand }
  else
    .error .misuse

/-- Adds a switch, which may be given once. -/
def addSwitch (name : String) (arguments : Arguments) : Except Request Arguments :=
  if arguments.has name then .error .misuse
  else .ok { arguments with switches := name :: arguments.switches }

def addValue (option : ValueOption) (value : String) (arguments : Arguments) :
    Except Request Arguments :=
  if (arguments.value? option.name).isNone ∧ option.accepts value then
    .ok { arguments with values := (option.name, value) :: arguments.values }
  else
    .error .misuse

/-- Adds short switches that share a hyphen. -/
def addShort (grammar : Grammar) (arguments : Arguments) (letters : List Char) :
    Except Request Arguments :=
  letters.foldlM (fun arguments letter =>
    if letter = 'h' then .error .help
    else if letter = 'V' then .error .version
    else
      match grammar.switches.find? (·.short? == some letter) with
      | none => .error .misuse
      | some switch => addSwitch switch.name arguments) arguments

/-- Adds a long option with its value, or a switch. -/
def addLong (grammar : Grammar) (name : String) (value? : Option String)
    (arguments : Arguments) : Except Request Arguments :=
  match value? with
  | some value =>
    match grammar.values.find? (·.name == name) with
    | some option => addValue option value arguments
    | none => .error .misuse
  | none =>
    if grammar.switches.any (·.name == name) then addSwitch name arguments
    else if name = "help" then .error .help
    else if name = "version" then .error .version
    else .error .misuse

/-- How far the arguments have been read. -/
structure Reading where
  arguments : Arguments := {}
  -- The option that the next argument is the value of.
  pending? : Option ValueOption := none
  -- All further arguments are operands.
  operandsOnly : Bool := false

def Reading.continue (reading : Reading) (arguments : Except Request Arguments) :
    Except Request Reading :=
  arguments.map fun arguments => { reading with arguments, pending? := none }

def read (grammar : Grammar) (reading : Reading) (argument : String) : Except Request Reading :=
  let arguments := reading.arguments
  if reading.operandsOnly then
    reading.continue (grammar.addOperand argument arguments)
  else
    match reading.pending?, argument.toList with
    | some option, _ =>
      reading.continue <|
        if isOption argument then .error .misuse else addValue option argument arguments
    | none, ['-', '-'] => .ok { reading with operandsOnly := true }
    | none, '-' :: '-' :: long =>
      let (name, value?) := splitLong long
      match value?, grammar.values.find? (·.name == name) with
      | none, some option => .ok { reading with pending? := some option }
      | _, _ => reading.continue (grammar.addLong name value? arguments)
    | none, '-' :: letter :: letters =>
      reading.continue (grammar.addShort arguments (letter :: letters))
    | none, _ => reading.continue (grammar.addOperand argument arguments)

/-- What the arguments of a command ask for. -/
def request (grammar : Grammar) (arguments : List String) : Request :=
  match arguments.foldlM grammar.read {} with
  | .error request => request
  | .ok reading =>
    if reading.pending?.isSome ∨ reading.arguments.operands.size < grammar.minOperands then
      .misuse
    else
      .run reading.arguments

end Grammar

end ClassThaw
