import Courier.Worker.Process

/-!
The cycle of a worker: lease a batch, process it job by job, wait when there was nothing to do.
-/

namespace Courier

/-- How one round of a loop ends. -/
inductive Round where
  | again
  | ended
  | crashed
deriving DecidableEq

namespace Worker

open Plan

/-- Gives a sign of life; that it cannot be stored does not matter. -/
def signal {α : Type} (worker status : String) (k : Attempt α) : Attempt α :=
  .step (.beat worker status) fun
    | .error .crash => fail .crash
    | _ => k

/-- Processes jobs one after the other. What one job reports does not keep the next from its
turn. -/
def processEach (cfg : Config) (worker : String) : List Job → Attempt Unit
  | [] => give ()
  | job :: jobs =>
    signal worker "executing" <|
      .step (.emit (.leased job.id worker job.attemptCount)) fun _ =>
        regardless (process cfg worker job) (processEach cfg worker jobs)

/-- Leases one batch and processes it; gives the number of jobs leased. -/
def runOnce (cfg : Config) (worker : String) : Attempt Nat :=
  signal worker "polling" <|
    .step (.leaseJobs worker cfg.lease.batchSize cfg.lease.visibilityTimeout) fun
      | .error e => fail e
      | .ok jobs => andThen (processEach cfg worker jobs) fun _ => give jobs.length

/-- The last sign of life. -/
def stop (worker : String) : Plan Round :=
  .step (.beat worker Beat.stopped) fun
    | .error .crash => .done .crashed
    | _ => .done .ended

/-- Waits before the next round. -/
def rest (worker : String) (ms : Nat) : Plan Round :=
  .step (.pause ms) fun
    | .shutDown => stop worker
    | _ => .done .again

/-- One round of the worker's loop. -/
def round (cfg : Config) (worker : String) : Plan Round :=
  .step .isShutDown fun
    | true => stop worker
    | false =>
      (runOnce cfg worker).bind fun
        | .error .crash => .done .crashed
        | .error (.error _) => rest worker cfg.lease.errorBackoffMs
        | .ok 0 => rest worker cfg.lease.idlePollMs
        | .ok _ => .done .again

end Worker

end Courier
