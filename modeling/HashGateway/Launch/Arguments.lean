/-!
# Arguments of the command line

Options with a long form, a value and perhaps a short form. A value stands behind an
equals sign, behind the short form, or in the next argument if that begins no option.

## Main definitions

* `OptionName` — the options
* `Arguments` — which options are given, with which values
* `Arguments.read` — reads the arguments
* `Arguments.check` — what is refused after all arguments have been read
* `Arguments.parse` — both together
-/

namespace HashGateway.Launch

/-- The options. -/
inductive OptionName
  | config
  | address
  | engine
  | pool
  | threads
  deriving DecidableEq, Repr

namespace OptionName

/-- All options. -/
def all : List OptionName := [.config, .address, .engine, .pool, .threads]

/-- The long form, without its dashes. -/
def long : OptionName → String
  | .config => "config"
  | .address => "addr"
  | .engine => "engine"
  | .pool => "pool"
  | .threads => "threads"

/-- What the value is called in messages. -/
def valueName : OptionName → String
  | .config => "FILE"
  | .address => "IP_ADDR:PORT"
  | .engine => "ENGINE_NAME"
  | .pool => "POOL"
  | .threads => "N"

/-- The only values that are allowed, if there is a choice of them. -/
def choices : OptionName → Option (List String)
  | .engine => some ["redis", "memory"]
  | .pool => some ["naive", "shared", "rayon"]
  | _ => none

/-- How an option is called in messages. -/
def display (name : OptionName) : String := s!"--{name.long} <{name.valueName}>"

/-- The option with a long form. -/
def named? (long : String) : Option OptionName := all.find? fun name => name.long = long

end OptionName

/-- Why the program stops at its arguments. -/
inductive Stop
  | help
  | version
  | unknown (argument : String)
  | noValue (name : OptionName)
  | badValue (name : OptionName) (value : String)
  | repeated (name : OptionName)
  deriving DecidableEq, Repr

/-- The options that are given, in their order, each with its value if it has one. -/
abbrev Arguments := List (OptionName × Option String)

namespace Arguments

/-- Whether an argument begins an option. A dash alone does not. -/
def beginsOption (argument : String) : Bool :=
  match argument.toList with
  | ['-'] => false
  | '-' :: _ => true
  | _ => false

/-- What an argument that begins an option says: the option, and the value in the same argument. -/
def option (argument : String) : Except Stop (OptionName × Option String) :=
  let value (cs : List Char) : String := String.ofList (cs.dropWhile (· == '='))
  match argument.toList with
  | '-' :: '-' :: cs =>
    -- More dashes than two mean the same.
    let cs := cs.dropWhile (· == '-')
    let long := String.ofList (cs.takeWhile (· != '='))
    match OptionName.named? long, cs.dropWhile (· != '=') with
    | some name, [] => .ok (name, none)
    | some name, rest => .ok (name, some (value rest))
    | none, _ =>
      .error (if long = "help" then .help
        else if long = "version" then .version
        else .unknown ("--" ++ long))
  | _ :: 'c' :: [] => .ok (.config, none)
  | _ :: 'c' :: rest => .ok (.config, some (value rest))
  | _ :: 'h' :: _ => .error .help
  | _ :: 'V' :: _ => .error .version
  | _ :: c :: _ => .error (.unknown (String.ofList ['-', c]))
  | _ => .error (.unknown argument)

/-- Reads arguments. `pending` is the option before them if it has no value yet; it is left over
if no value comes. -/
def read (pending : Option OptionName) :
    List String → Except Stop (Arguments × Option OptionName)
  | [] => .ok (pending.toList.map (·, none), pending)
  | argument :: rest =>
    let before : Arguments := pending.toList.map (·, none)
    -- Nothing may stand behind two dashes alone, since no argument stands for itself.
    if argument = "--" then
      match rest with
      | [] => .ok (before, pending)
      | extra :: _ => .error (.unknown extra)
    else if beginsOption argument then
      match option argument with
      | .error stop => .error stop
      | .ok (name, none) =>
        (read (some name) rest).map fun (given, left) => (before ++ given, left)
      | .ok (name, some value) =>
        (read none rest).map fun (given, left) => (before ++ (name, some value) :: given, left)
    else
      match pending with
      | some name =>
        (read none rest).map fun (given, left) => ((name, some argument) :: given, left)
      | none => .error (.unknown argument)

/-- The values of an option. -/
def values (given : Arguments) (name : OptionName) : List String :=
  given.filterMap fun (n, value) => if n = name then value else none

/-- How often an option is given. -/
def count (given : Arguments) (name : OptionName) : Nat :=
  (given.filter fun (n, _) => n = name).length

/-- The value of an option. -/
def value? (given : Arguments) (name : OptionName) : Option String := (values given name).head?

/-- Refuses an option without a value, with a value that is no choice, or given twice. -/
def checkOption (given : Arguments) (name : OptionName) : Except Stop Unit :=
  if count given name = 0 then .ok ()
  else if (values given name).isEmpty then .error (.noValue name)
  else
    match name.choices.bind fun choices => (values given name).find? (!choices.contains ·) with
    | some value => .error (.badValue name value)
    | none => if 1 < count given name then .error (.repeated name) else .ok ()

/-- What is refused after all arguments have been read; an option that is still without a value
at the end comes first. -/
def check (given : Arguments) (pending : Option OptionName) : Except Stop Unit :=
  match pending.filter fun name => (values given name).isEmpty with
  | some name => .error (.noValue name)
  | none => OptionName.all.forM (checkOption given)

/-- The options of a command line. -/
def parse (arguments : List String) : Except Stop Arguments := do
  let (given, pending) ← read none arguments
  check given pending
  return given

end Arguments

end HashGateway.Launch
