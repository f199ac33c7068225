import Courier.Engine.Service
import Courier.Server.CommandLine

/-!
From a command line to a running server or to the error that prevents it. A database that is named
is never reached; without one the stores are in memory.
-/

namespace Courier

inductive LaunchError where
  /-- The command line leads to no run. -/
  | stopped (s : Stop)
  | notLoaded (e : LoadError)
  | badAddress (e : LoadError)
  | databaseNotNamed
  | databaseUnreachable
  | cannotListen (a : Address)

namespace LaunchError

def message : LaunchError → String
  | stopped s => s.message
  | notLoaded _ => "failed to load configuration"
  | badAddress e => e.message
  | databaseNotNamed => Variable.databaseUrl ++ " is required to run migrations"
  | databaseUnreachable => "failed to connect to PostgreSQL"
  | cannotListen a => "failed to bind " ++ a.toText

/-- The code that the program ends with. -/
def exitCode : LaunchError → Nat
  | stopped (.helpAsked _) => 0
  | stopped _ => 2
  | _ => 1

/-- What the program has to say on its way out. -/
def report : LaunchError → String
  | stopped s => s.message
  | e => "Error: " ++ e.message

/-- Whether the configuration had been read, and told of, by then. -/
def isAfterLoading : LaunchError → Bool
  | stopped _ | notLoaded _ => false
  | _ => true

end LaunchError

/-- What a program was started to do. -/
structure Launch where
  migrate : Bool
  config : ServerConfig

namespace Launch

/-- Reads the command line and loads the configuration. -/
def prepare (files : Files) (envFile : Option String) (env : Environment)
    (arguments : List String) : Except LaunchError Launch := do
  let c ← (CommandLine.read env arguments).mapError LaunchError.stopped
  let loaded ← (ServerConfig.load files envFile c.config env).mapError LaunchError.notLoaded
  return ⟨c.migrate, c.override loaded.config⟩

/-- The path of the configuration, if the command line or the environment names one. -/
def configPath? (envFile : Option String) (env : Environment) (arguments : List String) :
    Option String :=
  match CommandLine.read env arguments, ServerConfig.withEnvFile env envFile with
  | .ok c, .ok env => c.config.orElse fun _ => (Ambient.ofEnvironment env).configPath
  | _, _ => none

/-- Opens the database, if one is named. -/
def connect (c : ServerConfig) : Except LaunchError Unit :=
  if c.database.url.isSome then .error .databaseUnreachable else .ok ()

/-- The address to listen on, once all else is ready. -/
def listenAt (c : ServerConfig) : Except LaunchError Address := do
  let a ← c.bindAddress.mapError LaunchError.badAddress
  connect c
  return a

/-- Runs up to the point where the server listens; a migration never gets there. -/
def run (l : Launch) : Except LaunchError Address :=
  if l.migrate then .error (if l.config.database.url.isSome then .databaseUnreachable else .databaseNotNamed)
  else listenAt l.config

/-- How a run ends: with a code, and a line on either output. -/
structure Ending where
  code : Nat
  /-- Whether the server listened until it was told to stop. -/
  listened : Bool
  errors : String
  /-- `none` where the output starts with what was told of the configuration. -/
  output : Option String

def ending : Except LaunchError Address → Ending
  | .ok _ => ⟨0, true, "", none⟩
  | .error (.stopped (.helpAsked topic)) => ⟨0, false, "", some topic.about⟩
  | .error e => ⟨e.exitCode, false, e.report, if e.isAfterLoading then none else some ""⟩

/-- The engine, each platform served without effect. -/
def engine (start : Timestamp) (c : ServerConfig) : Except LaunchError Engine := do
  connect c
  return .create c.engine start (.ofPlatforms c.platforms)

end Launch

end Courier
