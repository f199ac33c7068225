import Courier.Engine.Service

/-!
Putting an engine together: a configuration and the parts to use with it. Parts that are not given
take their usual form, except for the producer's side, which has no usual form.
-/

namespace Courier

structure Assembly where
  config : Config
  /-- Where a clock of its own starts. -/
  clock : Option Timestamp
  /-- Stores that were given and not left to their usual form. -/
  givenStores : List Store
  platforms : List String
  hasMaterializer : Bool
  hasApplier : Bool

namespace Assembly

def ofConfig (config : Config) : Assembly := ⟨config, none, [], [], false, false⟩

def withClock (start : Timestamp) (a : Assembly) : Assembly := { a with clock := some start }

def withStore (s : Store) (a : Assembly) : Assembly := { a with givenStores := s :: a.givenStores }

/-- Adds a platform that is served without effect. -/
def withDryRun (platform : String) (a : Assembly) : Assembly :=
  { a with platforms := a.platforms ++ [platform] }

def withApplier (a : Assembly) : Assembly := { a with hasApplier := true }

/-- The platforms connected. -/
def surroundings (a : Assembly) : Surroundings := .ofPlatforms a.platforms

/-- The engine, with its clock at `usual` unless it was given one. -/
def build (usual : Timestamp) (a : Assembly) : Except Error Engine :=
  if a.hasApplier then .ok (.create a.config (a.clock.getD usual) a.surroundings)
  else .error .applierMissing

def describe (a : Assembly) : String :=
  let given (s : Store) := Diagnostic.bool (a.givenStores.contains s)
  Diagnostic.record "ExecutionRuntimeBuilder"
    [("config", a.config.describe), ("clock_set", Diagnostic.bool a.clock.isSome),
      ("queue_set", given .queue), ("inbox_set", given .inbox),
      ("idempotency_set", given .attempts), ("heartbeats_set", given .beats),
      ("adapters",
        Diagnostic.record "AdapterRegistry"
          [("platforms", Diagnostic.list (a.surroundings.platforms.map Diagnostic.quoted))]),
      ("materializer_set", Diagnostic.bool a.hasMaterializer),
      ("applier_set", Diagnostic.bool a.hasApplier)]

end Assembly

end Courier
