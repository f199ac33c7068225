import Courier.Worker.Cycle

/-!
Supervision. Worker loops that have ended are started again; a worker that has fallen silent makes
the queue take back every lease that has run out. Housekeeping does the same at its own pace and
forgets what is old.
-/

namespace Courier

/-- What one check found and did. -/
structure SupervisorReport where
  restarted : List String
  stale : List String
  reclaimed : Nat
deriving DecidableEq

namespace SupervisorReport

def toJson (r : SupervisorReport) : Json :=
  Json.sorted
    [("restarted", .arr (r.restarted.map .str)), ("stale", .arr (r.stale.map .str)),
      ("reclaimed", Json.ofNat r.reclaimed)]

def read : Json → Reading SupervisorReport :=
  Json.readRecord ["restarted", "stale", "reclaimed"] fun f =>
    SupervisorReport.mk <$> f.required "restarted" (Json.readList Json.readString?)
      <*> f.required "stale" (Json.readList Json.readString?)
      <*> f.required "reclaimed" Json.readU64

end SupervisorReport

namespace Supervisor

open Plan

/-- The workers whose last sign of life is older than their own leases run, in the order given. -/
def findStale (now : Timestamp) (stale : List String) :
    List (String × Span) → Attempt (List String)
  | [] => give stale
  | (worker, visibility) :: workers =>
    .step (.lastBeat worker) fun
      | .error e => fail e
      | .ok none => findStale now stale workers
      | .ok (some b) =>
        findStale now (if b.isStale visibility now then stale ++ [worker] else stale) workers

/-- Looks for silent ones among the workers, each given with the time that its leases run, and takes
back leases that have run out when there are any. -/
def recover (workers : List (String × Span)) : Attempt (List String × Nat) :=
  .step .readClock fun now =>
    andThen (findStale now [] workers) fun stale =>
      if stale.isEmpty then give ([], 0)
      else
        .step .reclaimJobs fun
          | .error e => fail e
          | .ok n => give (stale, n)

/-- Looks for silent ones among the registered workers, whose leases all run equally long. -/
def checkBeats (visibility : Span) : Attempt (List String × Nat) :=
  .step .workerIds fun workers => recover (workers.map fun worker => (worker, visibility))

/-- One check: dead workers first, then silent ones. -/
def check (visibility : Span) : Attempt SupervisorReport :=
  .step .restartDead fun restarted =>
    andThen (checkBeats visibility) fun (stale, reclaimed) =>
      give ⟨restarted, stale, reclaimed⟩

/-- One round of the supervisor's loop. -/
def round (cfg : Config) : Plan Round :=
  .step (.pause cfg.supervisor.checkIntervalMs) fun
    | .shutDown => .done .ended
    | _ =>
      (check cfg.lease.visibilityTimeout).bind fun
        | .error .crash => .done .crashed
        | _ => .done .again

end Supervisor

namespace Housekeeper

open Plan

/-- Takes back leases that have run out, then forgets what is older than the retention. -/
def tidy (cfg : LeaseConfig) : Attempt Unit :=
  regardless (.step .reclaimJobs .done) <|
    regardless (.step .reclaimEnvelopes .done) <|
      .step .readClock fun now =>
        let cutoff := now.sub cfg.retention
        regardless (.step (.pruneJobs cutoff) .done) <|
          regardless (.step (.pruneEnvelopes cutoff) .done) <| give ()

/-- One round of the housekeeper's loop. -/
def round (cfg : LeaseConfig) : Plan Round :=
  .step (.pause cfg.housekeeperIntervalMs) fun
    | .shutDown => .done .ended
    | _ =>
      (tidy cfg).bind fun
        | .error .crash => .done .crashed
        | _ => .done .again

end Housekeeper

end Courier
