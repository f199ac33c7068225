import Courier.Config
import Courier.Server.Address

/-!
What the server is set up with: where it listens, its database, the platforms it serves without
effect, and the knobs of the engine. What a document leaves out keeps its usual value.
-/

namespace Courier

open Json

structure ListenConfig where
  host : String := "0.0.0.0"
  port : Nat := 8080
deriving DecidableEq, Inhabited

namespace ListenConfig

def read : Json → Reading ListenConfig :=
  readRecord ["host", "port"] fun f =>
    ListenConfig.mk <$> f.orElse "host" "0.0.0.0" readString? <*> f.orElse "port" 8080 readU16

def toJson (c : ListenConfig) : Json := sorted [("host", .str c.host), ("port", ofNat c.port)]

end ListenConfig

structure DatabaseConfig where
  /-- Where the database is; the stores stay in memory without it. -/
  url : Option String := none
  maxConnections : Nat := 10
  runMigrations : Bool := true
deriving DecidableEq, Inhabited

namespace DatabaseConfig

def read : Json → Reading DatabaseConfig :=
  readRecord ["url", "max_connections", "run_migrations"] fun f =>
    DatabaseConfig.mk <$> f.orElse "url" none (readOption readString?)
      <*> f.orElse "max_connections" 10 readU32 <*> f.orElse "run_migrations" true readBool

def toJson (c : DatabaseConfig) : Json :=
  sorted
    [("url", ofOption Json.str c.url), ("max_connections", ofNat c.maxConnections),
      ("run_migrations", .bool c.runMigrations)]

end DatabaseConfig

structure ServerConfig where
  listen : ListenConfig
  database : DatabaseConfig
  platforms : List String
  engine : Config

namespace ServerConfig

def usualPlatforms : List String := ["dry-run"]

def usual : ServerConfig := ⟨{}, {}, usualPlatforms, .usual⟩

instance : Inhabited ServerConfig := ⟨usual⟩

def read : Json → Reading ServerConfig :=
  readRecord ["server", "database", "platforms", "execution"] fun f =>
    ServerConfig.mk <$> f.orElse "server" {} ListenConfig.read
      <*> f.orElse "database" {} DatabaseConfig.read
      <*> f.orElse "platforms" usualPlatforms (readList readString?)
      <*> f.orElse "execution" .usual Config.read

def toJson (c : ServerConfig) : Json :=
  sorted
    [("server", c.listen.toJson), ("database", c.database.toJson),
      ("platforms", .arr (c.platforms.map Json.str)), ("execution", c.engine.toJson)]

/-- The host and the port, as one text. -/
def bindText (c : ServerConfig) : String := c.listen.host ++ ":" ++ natText c.listen.port

def bindAddress? (c : ServerConfig) : Option Address := Address.ofText? c.bindText

def withHost (host : String) (c : ServerConfig) : ServerConfig :=
  { c with listen.host := host }

def withPort (port : Nat) (c : ServerConfig) : ServerConfig :=
  { c with listen.port := port }

def withDatabase (url : String) (c : ServerConfig) : ServerConfig :=
  { c with database.url := some url }

end ServerConfig

end Courier
