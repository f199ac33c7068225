import Courier.Server.Loading

/-!
The command line: options with a value, each at most once, and then a command. The value of an
option is checked when the next option or the end is reached, so that an option nobody knows is
told of first. An option that is not given takes the value of its variable as it stands.
-/

namespace Courier

inductive Choice where
  | config
  | port
  | host
  | databaseUrl
deriving DecidableEq

namespace Choice

def name : Choice → String
  | config => "config"
  | port => "port"
  | host => "host"
  | databaseUrl => "database-url"

/-- What stands for the value in messages. -/
def placeholder : Choice → String
  | config => "CONFIG"
  | port => "PORT"
  | host => "HOST"
  | databaseUrl => "DATABASE_URL"

def shown (o : Choice) : String := "--" ++ o.name ++ " <" ++ o.placeholder ++ ">"

/-- The variable that stands in for the option. -/
def standIn? : Choice → Option String
  | config => none
  | port => some Variable.port
  | host => some Variable.host
  | databaseUrl => some Variable.databaseUrl

def all : List Choice := [config, port, host, databaseUrl]

def ofName? (s : String) : Option Choice := all.find? fun o => o.name = s

end Choice

/-- What is wrong with a number. -/
inductive NumberFlaw where
  | noNumber
  | empty
  | tooLarge
  | tooSmall
  /-- A number that is no port. -/
  | outside (n : Int)
deriving DecidableEq

namespace NumberFlaw

def message : NumberFlaw → String
  | noNumber => "invalid digit found in string"
  | empty => "cannot parse integer from empty string"
  | tooLarge => "number too large to fit in target type"
  | tooSmall => "number too small to fit in target type"
  | outside n => String.ofList (Decimal.ofInt n) ++ " is not in 0..=65535"

end NumberFlaw

/-- A port; a sign and leading zeros may stand before its digits. -/
def readPort (s : String) : Except NumberFlaw Nat :=
  let (negative, ds) := match s.toList with
    | '-' :: ds => (true, ds)
    | '+' :: ds => (false, ds)
    | ds => (false, ds)
  if s.isEmpty then .error .empty
  else
    match Decimal.nat? ds with
    | none => .error .noNumber
    | some n =>
      if negative then
        if Nat.pow 2 63 < n then .error .tooSmall
        else if n = 0 then .ok 0
        else .error (.outside (-n))
      else if Nat.pow 2 63 ≤ n then .error .tooLarge
      else if 65535 < n then .error (.outside n)
      else .ok n

inductive HelpTopic where
  | program
  | migrate
  | help
deriving DecidableEq

def HelpTopic.about : HelpTopic → String
  | program => "Execution runtime for approved agent intents"
  | migrate => "Apply database migrations and exit"
  | help => "Print this message or the help of the given subcommand(s)"

/-- Why a command line leads to no run. -/
inductive Stop where
  | helpAsked (topic : HelpTopic)
  | unexpected (argument : String)
  | unknownCommand (name : String)
  | badPort (value : String) (flaw : NumberFlaw)
  | valueMissing (o : Choice)
  | repeated (o : Choice)
  /-- A value for the option `--help`, which takes none. -/
  | valueForHelp (value : String)
deriving DecidableEq

namespace Stop

/-- The name by which callers tell causes apart. -/
def name : Stop → String
  | helpAsked _ => "DisplayHelp"
  | unexpected _ => "UnknownArgument"
  | unknownCommand _ => "InvalidSubcommand"
  | badPort _ _ => "ValueValidation"
  | valueMissing _ => "InvalidValue"
  | repeated _ => "ArgumentConflict"
  | valueForHelp _ => "TooManyValues"

def message : Stop → String
  | helpAsked topic => topic.about
  | unexpected a => "error: unexpected argument '" ++ a ++ "' found"
  | unknownCommand c => "error: unrecognized subcommand '" ++ c ++ "'"
  | badPort v flaw =>
    "error: invalid value '" ++ v ++ "' for '" ++ Choice.port.shown ++ "': " ++ flaw.message
  | valueMissing o => "error: a value is required for '" ++ o.shown ++ "' but none was supplied"
  | repeated o => "error: the argument '" ++ o.shown ++ "' cannot be used multiple times"
  | valueForHelp v =>
    "error: unexpected value '" ++ v ++ "' for '--help' found; no more were expected"

end Stop

/-- What a command line asks for. -/
structure CommandLine where
  config : Option String := none
  port : Option Nat := none
  host : Option String := none
  databaseUrl : Option String := none
  migrate : Bool := false
deriving DecidableEq

namespace CommandLine

def given (c : CommandLine) : Choice → Bool
  | .config => c.config.isSome
  | .port => c.port.isSome
  | .host => c.host.isSome
  | .databaseUrl => c.databaseUrl.isSome

/-- Sets an option to a value, which has to fit. -/
def set (o : Choice) (value : String) (c : CommandLine) : Except Stop CommandLine :=
  match o with
  | .config =>
    if value.isEmpty then .error (.valueMissing .config) else .ok { c with config := some value }
  | .port =>
    match readPort value with
    | .ok n => .ok { c with port := some n }
    | .error flaw => .error (.badPort value flaw)
  | .host => .ok { c with host := some value }
  | .databaseUrl => .ok { c with databaseUrl := some value }

/-- An option that came up, whose value is still unchecked or not yet there. -/
structure Pending where
  choice : Choice
  value : Option String

/-- A command line in reading. -/
structure Progress where
  line : CommandLine
  pending : Option Pending

namespace Progress

/-- Checks the option that is pending. -/
def settle (p : Progress) : Except Stop CommandLine :=
  match p.pending with
  | none => .ok p.line
  | some ⟨o, none⟩ => .error (.valueMissing o)
  | some ⟨o, some v⟩ => if p.line.given o then .error (.repeated o) else p.line.set o v

/-- Goes on to an option. A value that is attached is checked at once. -/
def begin (o : Choice) (attached : Option String) (p : Progress) : Except Stop Progress := do
  let line ← p.settle
  match attached with
  | none => .ok ⟨line, some ⟨o, none⟩⟩
  | some v => (Progress.settle ⟨line, some ⟨o, some v⟩⟩).map fun line => ⟨line, none⟩

/-- Whether the next argument is the value of an option. -/
def awaits (p : Progress) : Bool := p.pending.any fun x => x.value.isNone

/-- Takes an argument as the value of the option that awaits one. -/
def supply (v : String) (p : Progress) : Progress :=
  { p with pending := p.pending.map fun x => { x with value := some v } }

end Progress

/-- The name and the attached value of `--name` or `--name=value`. -/
def splitLong (cs : List Char) : String × Option String :=
  let name := String.ofList (cs.takeWhile (· ≠ '='))
  match cs.dropWhile (· ≠ '=') with
  | _ :: v => (name, some (String.ofList v))
  | [] => (name, none)

/-- An option by its long name. -/
def readLong (cs : List Char) (p : Progress) : Except Stop Progress :=
  let (name, attached) := splitLong cs
  match Choice.ofName? name, attached with
  | some o, attached => p.begin o attached
  | none, none =>
    if name = "help" then p.settle.bind fun _ => .error (.helpAsked .program)
    else .error (.unexpected ("--" ++ name))
  | none, some v =>
    if name = "help" then .error (.valueForHelp v) else .error (.unexpected ("--" ++ name))

/-- An option by its letter; what follows the letter is its value, with or without an equals
sign. -/
def readShort (c : Char) (more : List Char) (p : Progress) : Except Stop Progress :=
  if c = 'h' then p.settle.bind fun _ => .error (.helpAsked .program)
  else if c = 'p' then
    match more with
    | [] => p.begin .port none
    | '=' :: v => p.begin .port (some (String.ofList v))
    | v => p.begin .port (some (String.ofList v))
  else .error (.unexpected (String.ofList ['-', c]))

/-- What follows the command `help`: the commands to tell about. -/
def readHelp : List String → Stop
  | [] => .helpAsked .program
  | c :: more =>
    let about (topic : HelpTopic) : Stop :=
      match more with
      | [] => .helpAsked topic
      | d :: _ => .unknownCommand d
    if c = "migrate" then about .migrate else if c = "help" then about .help else .unknownCommand c

/-- What follows the command `migrate`, which takes nothing but a question for help. -/
def readMigrate : List String → Except Stop Unit
  | [] => .ok ()
  | a :: rest =>
    match a.toList with
    | ['-', '-'] =>
      match rest with
      | [] => .ok ()
      | b :: _ => .error (.unexpected b)
    | '-' :: '-' :: cs =>
      match splitLong cs with
      | ("help", none) => .error (.helpAsked .migrate)
      | ("help", some v) => .error (.valueForHelp v)
      | (name, _) => .error (.unexpected ("--" ++ name))
    | '-' :: 'h' :: _ => .error (.helpAsked .migrate)
    | '-' :: c :: _ => .error (.unexpected (String.ofList ['-', c]))
    | _ => .error (.unexpected a)

/-- What follows two dashes: nothing can. -/
def readTrailing (p : Progress) : List String → Except Stop CommandLine
  | [] => p.settle
  | a :: _ =>
    if a = "migrate" ∨ a = "help" then .error (.unexpected a) else .error (.unknownCommand a)

def readArguments (p : Progress) : List String → Except Stop CommandLine
  | [] => p.settle
  | a :: rest =>
    if !p.awaits && a = "help" then .error (readHelp rest)
    else if !p.awaits && a = "migrate" then do
      readMigrate rest
      return { ← p.settle with migrate := true }
    else
      match a.toList with
      | ['-', '-'] => readTrailing p rest
      | '-' :: '-' :: cs => do readArguments (← readLong cs p) rest
      | '-' :: c :: more => do readArguments (← readShort c more p) rest
      | _ => if p.awaits then readArguments (p.supply a) rest else .error (.unknownCommand a)

/-- Sets an option that was not given to what its variable says. -/
def fallBack (env : Environment) (c : CommandLine) (o : Choice) : Except Stop CommandLine :=
  if c.given o then .ok c
  else
    match o.standIn?.bind fun name => env.lookup name with
    | some v => c.set o v
    | none => .ok c

def read (env : Environment) (arguments : List String) : Except Stop CommandLine := do
  Choice.all.foldlM (fallBack env) (← readArguments ⟨{}, none⟩ arguments)

/-- What was asked for goes before what was loaded. -/
def override (c : CommandLine) (s : ServerConfig) : ServerConfig :=
  let s := c.port.elim s fun n => s.withPort n
  let s := c.host.elim s fun h => s.withHost h
  c.databaseUrl.elim s fun u => s.withDatabase u

end CommandLine

end Courier
