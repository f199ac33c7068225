import Courier.Server.Config
import Courier.Server.EnvFile
import Courier.Server.Files
import Courier.Toml.Reader

/-!
Loading the configuration. The first of these that there is gives the document: a file named on the
command line, a file named by a variable, a document in a variable. Single settings in variables
then replace what the document says. A variable with nothing but blanks counts as not set.
-/

namespace Courier

namespace Variable

def configPath : String := "ACTUATOR_CONFIG_PATH"

def configDocument : String := "ACTUATOR_CONFIG_JSON"

def host : String := "SERVER_HOST"

def port : String := "SERVER_PORT"

def databaseUrl : String := "DATABASE_URL"

def platforms : String := "ACTUATOR_PLATFORMS"

def all : List String := [configPath, configDocument, host, port, databaseUrl, platforms]

end Variable

inductive LoadError where
  | envFile
  | unreadable (path : String)
  | badToml (path : String)
  /-- The origin of the document is a path or a variable. -/
  | badJson (origin : String)
  | badVariable (name value : String)
  | badAddress (text : String)
deriving DecidableEq

namespace LoadError

/-- The name by which callers tell causes apart. -/
def name : LoadError → String
  | envFile => "EnvFile"
  | unreadable _ => "Io"
  | badToml _ => "Toml"
  | badJson _ => "Json"
  | badVariable _ _ => "InvalidEnv"
  | badAddress _ => "InvalidBindAddress"

def message : LoadError → String
  | envFile => "failed to read .env file"
  | unreadable path => "failed to read configuration " ++ path
  | badToml path => "failed to parse configuration " ++ path
  | badJson origin => "failed to parse JSON configuration from " ++ origin
  | badVariable name value => "invalid " ++ name ++ " value '" ++ value ++ "'"
  | badAddress text => "invalid bind address " ++ text

end LoadError

/-- What the environment says about the configuration. -/
structure Ambient where
  configPath : Option String := none
  configDocument : Option String := none
  host : Option String := none
  port : Option String := none
  databaseUrl : Option String := none
  platforms : Option String := none
deriving DecidableEq

namespace Ambient

/-- A variable that is set to more than blanks. -/
def nonBlank? (env : Environment) (name : String) : Option String :=
  (env.lookup name).filter fun v => !Blank.allBlank v

def ofEnvironment (env : Environment) : Ambient where
  configPath := nonBlank? env Variable.configPath
  configDocument := nonBlank? env Variable.configDocument
  host := nonBlank? env Variable.host
  port := nonBlank? env Variable.port
  databaseUrl := nonBlank? env Variable.databaseUrl
  platforms := nonBlank? env Variable.platforms

end Ambient

/-- Where the document came from. -/
inductive ConfigOrigin where
  | file (path : String)
  | inline
  | usual
deriving DecidableEq

def ConfigOrigin.name : ConfigOrigin → String
  | file _ => "path"
  | inline => "inline"
  | usual => "defaults"

structure Loaded where
  config : ServerConfig
  origin : ConfigOrigin
  /-- Whether a file of variables was read before. -/
  envFile : Bool

namespace ServerConfig

def isJsonPath (path : String) : Bool :=
  (Files.extension? path).any fun e => e.map Char.toLower = "json"

/-- The configuration in a file: JSON if the file is named so, else TOML. -/
def readFile (files : Files) (path : String) : Except LoadError ServerConfig :=
  match files.read? path with
  | none => .error (.unreadable path)
  | some text =>
    if isJsonPath path then
      match Json.readText read text with
      | .ok c => .ok c
      | _ => .error (.badJson path)
    else
      match (Toml.ofText? text).map read with
      | some (.ok c) => .ok c
      | _ => .error (.badToml path)

/-- The document and where it came from. -/
def readDocument (files : Files) (a : Ambient) : Except LoadError (ServerConfig × ConfigOrigin) :=
  match a.configPath, a.configDocument with
  | some path, _ => (readFile files path).map fun c => (c, .file path)
  | none, some text =>
    match Json.readText read text with
    | .ok c => .ok (c, .inline)
    | _ => .error (.badJson Variable.configDocument)
  | none, none => .ok (usual, .usual)

/-- Names with commas between them; blanks around a name and empty names do not count. -/
def splitPlatforms (s : String) : List String :=
  let names := (s.splitOn ",").map fun p => String.ofList (Blank.trim p.toList)
  names.filter (· ≠ "")

def replaceHost (a : Ambient) (c : ServerConfig) : ServerConfig :=
  match a.host with
  | some host => c.withHost host
  | none => c

def replacePort (a : Ambient) (c : ServerConfig) : Except LoadError ServerConfig :=
  match a.port with
  | some text =>
    match Decimal.unsigned? 65535 text with
    | some port => .ok (c.withPort port)
    | none => .error (.badVariable Variable.port text)
  | none => .ok c

def replaceDatabase (a : Ambient) (c : ServerConfig) : ServerConfig :=
  match a.databaseUrl with
  | some url => c.withDatabase url
  | none => c

def replacePlatforms (a : Ambient) (c : ServerConfig) : ServerConfig :=
  match a.platforms with
  | some text => { c with platforms := splitPlatforms text }
  | none => c

/-- The configuration that the environment makes up. -/
def compose (files : Files) (a : Ambient) : Except LoadError Loaded := do
  let (c, origin) ← readDocument files a
  let c ← (c.replaceHost a).replacePort a
  .ok ⟨(c.replaceDatabase a).replacePlatforms a, origin, false⟩

/-- The environment with what a file of variables adds to it. -/
def withEnvFile (env : Environment) : Option String → Except LoadError Environment
  | none => .ok env
  | some text =>
    match EnvFile.load? env text with
    | some env => .ok env
    | none => .error .envFile

/-- Reads a file of variables, if there is one, and then the configuration. A path given goes
before the one in a variable. -/
def load (files : Files) (envFile path : Option String) (env : Environment) :
    Except LoadError Loaded := do
  let a := Ambient.ofEnvironment (← withEnvFile env envFile)
  let loaded ← compose files { a with configPath := path.orElse fun _ => a.configPath }
  .ok { loaded with envFile := envFile.isSome }

/-- The address to listen on. -/
def bindAddress (c : ServerConfig) : Except LoadError Address :=
  match c.bindAddress? with
  | some a => .ok a
  | none => .error (.badAddress c.bindText)

end ServerConfig

end Courier
