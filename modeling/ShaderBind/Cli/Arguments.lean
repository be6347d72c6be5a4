/-!
# Arguments of a program

A program has options, some of which take a value, and one operand (`OptionSpec`, `Given`). The
arguments are read from left to right (`parse`), and the first fault ends the reading, as does a
request for help.

An option is given by its long name after two dashes, its value after an equals sign or as the next
argument; or by its letter after one dash, where letters may be joined and the value may follow at
once. What looks like an option is never taken for a value. After two dashes alone all arguments are
operands.
-/

namespace ShaderBind.Cli

/-- An option of a program. -/
structure OptionSpec where
  long : String
  short : Option Char := none
  takesValue : Bool := true
  /-- Whether it may be given more than once. -/
  repeats : Bool := false
  /-- Whether the option takes a value. -/
  accepts : String → Bool := fun _ => true

/-- What is wrong with the arguments. -/
inductive UsageFault
  | unknownOption (argument : String)
  | missingValue (long : String)
  | needlessValue (long : String)
  | refusedValue (long value : String)
  | repeatedOption (long : String)
  | missingOption (long : String)
  | missingOperand
  | emptyOperand
  | secondOperand (argument : String)
  deriving DecidableEq, Repr

/-- Wording of the fault. -/
def UsageFault.message : UsageFault → String
  | unknownOption argument => s!"unexpected argument '{argument}' found"
  | missingValue long => s!"a value is required for '--{long}' but none was supplied"
  | needlessValue long => s!"unexpected value for '--{long}' found; no more were expected"
  | refusedValue long value => s!"invalid value '{value}' for '--{long}'"
  | repeatedOption long => s!"the argument '--{long}' cannot be used multiple times"
  | missingOption long => s!"the required argument '--{long}' was not provided"
  | missingOperand => "the required argument '<SHADER>' was not provided"
  | emptyOperand => "a value is required for '<SHADER>' but none was supplied"
  | secondOperand argument => s!"unexpected argument '{argument}' found"

/-- Why reading ends early. -/
inductive Refusal
  | help
  | fault (f : UsageFault)
  deriving DecidableEq, Repr

/-- What the arguments give: options by long name, in order, and the operand. -/
structure Given where
  options : List (String × String) := []
  operand : Option String := none
  deriving DecidableEq, Repr, Inhabited

namespace Given

/-- Whether an option is given. -/
def has (g : Given) (long : String) : Bool :=
  g.options.any fun o => o.1 = long

/-- The values of an option, in order. -/
def values (g : Given) (long : String) : List String :=
  (g.options.filter fun o => o.1 = long).map Prod.snd

/-- The value of an option that is given once. -/
def value? (g : Given) (long : String) : Option String :=
  (g.values long).head?

/-- One more option. -/
def give (g : Given) (spec : OptionSpec) (value : String) : Except Refusal Given :=
  if !spec.repeats && g.has spec.long then .error (.fault (.repeatedOption spec.long))
  else if !spec.accepts value then .error (.fault (.refusedValue spec.long value))
  else .ok { g with options := g.options ++ [(spec.long, value)] }

/-- The operand. -/
def giveOperand (g : Given) (value : String) : Except Refusal Given :=
  match g.operand with
  | some _ => .error (.fault (.secondOperand value))
  | none =>
    if value.isEmpty then .error (.fault .emptyOperand)
    else .ok { g with operand := some value }

/-- What is given so far, and the option that the next argument is the value of. -/
abbrev Progress := Given × Option OptionSpec

/-- Reads an option by its long name. -/
def giveLong (specs : List OptionSpec) (g : Given) (body : List Char) : Except Refusal Progress :=
  let name := String.ofList (body.takeWhile (· ≠ '='))
  let attached := match body.dropWhile (· ≠ '=') with
    | _ :: value => some (String.ofList value)
    | [] => none
  match specs.find? fun s => s.long = name, attached with
  | some spec, some value =>
    if spec.takesValue then do return (← g.give spec value, none)
    else .error (.fault (.needlessValue name))
  | some spec, none =>
    if spec.takesValue then .ok (g, some spec) else do return (← g.give spec "", none)
  | none, attached =>
    if name = "help" ∧ attached = none then .error .help
    else .error (.fault (.unknownOption s!"--{name}"))

/-- Reads options by their letters. -/
def giveShort (specs : List OptionSpec) (g : Given) : List Char → Except Refusal Progress
  | [] => .ok (g, none)
  | c :: rest =>
    match specs.find? fun s => s.short = some c with
    | none =>
      if c = 'h' then .error .help else .error (.fault (.unknownOption s!"-{c}"))
    | some spec =>
      if spec.takesValue then
        match rest with
        | [] => .ok (g, some spec)
        | '=' :: value => do return (← g.give spec (String.ofList value), none)
        | value => do return (← g.give spec (String.ofList value), none)
      else do
        let g ← g.give spec ""
        giveShort specs g rest

/-- Reads an argument that no option waits for. -/
def giveNext (specs : List OptionSpec) (g : Given) (argument : String) : Except Refusal Progress :=
  match argument.toList with
  | '-' :: '-' :: body => giveLong specs g body
  | '-' :: c :: body => giveShort specs g (c :: body)
  | _ => do return (← g.giveOperand argument, none)

/-- Whether an argument looks like an option. A dash alone does not. -/
def looksLikeOption (argument : String) : Bool :=
  argument.startsWith "-" && argument ≠ "-"

/-- Reads the arguments that are left, the first of them the value of an option that waits. -/
def readFrom (specs : List OptionSpec) : Progress → List String → Except Refusal Given
  | (g, none), [] => .ok g
  | (_, some spec), [] => .error (.fault (.missingValue spec.long))
  | (g, some spec), argument :: rest =>
    if looksLikeOption argument then .error (.fault (.missingValue spec.long))
    else do
      let g ← g.give spec argument
      readFrom specs (g, none) rest
  | (g, none), argument :: rest =>
    if argument = "--" then rest.foldlM giveOperand g
    else do
      let next ← giveNext specs g argument
      readFrom specs next rest

end Given

/-- Reads the arguments of a program. -/
def parse (specs : List OptionSpec) (arguments : List String) : Except Refusal Given :=
  Given.readFrom specs ({}, none) arguments

end ShaderBind.Cli
