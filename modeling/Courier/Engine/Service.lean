import Courier.Engine.Schedule
import Courier.Queue.DeadLetter

/-!
What callers may ask of an engine: take in work, look at it, decide about dead letters, watch the
figures, and start and stop the tasks.
-/

namespace Courier

namespace Queue.Depth

def toJson (d : Depth) : Json :=
  Json.sorted
    [("queued", Json.ofNat d.queued), ("leased", Json.ofNat d.leased),
      ("completed", Json.ofNat d.completed), ("dlq", Json.ofNat d.dlq)]

def read : Json → Reading Depth :=
  Json.readRecord ["queued", "leased", "completed", "dlq"] fun f =>
    Depth.mk <$> f.required "queued" Json.readU64 <*> f.required "leased" Json.readU64
      <*> f.required "completed" Json.readU64 <*> f.required "dlq" Json.readU64

end Queue.Depth

namespace WindowUse

def toJson (w : WindowUse) : Json :=
  Json.sorted
    [("scope", .str w.scope), ("used", Json.ofNat w.used),
      ("max_events", Json.ofNat w.limit.maxEvents), ("window_secs", .int w.limit.windowSecs)]

end WindowUse

/-- The spacing of one route, as it is shown. -/
structure PaceView where
  route : String
  delaySecs : Float
  lastSentAt : Option Timestamp

namespace PaceView

def toJson (v : PaceView) : Json :=
  Json.sorted
    [("route", .str v.route), ("delay_secs", Json.ofFloat v.delaySecs),
      ("last_sent_at", Json.ofOption Timestamp.toJson v.lastSentAt)]

end PaceView

namespace Engine

/-- A job for an intent with a new id and the configured number of attempts. -/
def newJob (i : Intent) (e : Engine) : Job × Engine :=
  let (id, e) := e.drawId
  ({ Job.create ⟨id⟩ i e.now with maxAttempts := e.config.retry.maxAttempts }, e)

/-- What can be said of a job without asking the queue. -/
def checkNew (j : Job) : Except Error Unit := do
  j.check
  if j.state ≠ .queued then throw (.enqueuedInState j.id j.state)

/-- The notice about a job that was taken in or merged. -/
def noticeOf (h : Handle) : Notice :=
  match h.mergedInto with
  | some existing => .merged existing h.intentId
  | none => .enqueued h.jobId h.intentId

def enqueue (j : Job) (e : Engine) : Except Failure Handle × Engine :=
  let (r, e) := call .enqueue (checkNew j >>= fun _ => offline)
    (fun e => e.onQueue (Queue.enqueue j e.now)) e
  match r with
  | .ok h => (.ok h, e.emit (noticeOf h))
  | .error x => (.error x, e)

/-- Asks a store that is not subject to faults. -/
def ask {α : Type} (s : Store) (answer : Engine → α) (e : Engine) : Except Error α :=
  if e.unreachable.contains s then .error .databaseUnreachable else .ok (answer e)

def job? (id : JobId) (e : Engine) : Except Error (Option Job) :=
  e.ask .queue fun e => e.queue.get? id

def listDlq (limit : Nat) (e : Engine) : Except Error (List Job) :=
  e.ask .queue fun e => e.queue.listDlq limit

def depth (e : Engine) : Except Error Queue.Depth := e.ask .queue fun e => e.queue.depth

def depthByContext (e : Engine) : Except Error (List (String × Nat)) :=
  e.ask .queue fun e => e.queue.depthByContext

def inboxDepth (e : Engine) : Except Error Nat := e.ask .inbox fun e => e.inbox.depth

def envelopes (e : Engine) : Except Error (List Envelope) := e.ask .inbox fun e => e.inbox.envelopes

def attempt? (key : String) (e : Engine) : Except Error (Option AttemptRecord) :=
  e.ask .attempts fun e => Table.get? e.attempts key

def beats (e : Engine) : Except Error (List Beat) := e.ask .beats fun e => Liveness.list e.liveness

/-- Starts the work of a dead letter again. -/
def replay (id : JobId) (actor : String) (e : Engine) : Except Error Handle × Engine :=
  if e.unreachable.contains .queue then (.error .databaseUnreachable, e)
  else
    let (child, e) := e.drawId
    match e.onQueue (Queue.replay id ⟨child⟩ e.now) with
    | (.ok h, e) => (.ok h, e.emit (.replayed id h.jobId actor))
    | (.error x, e) => (.error x, e)

/-- Closes a dead letter. -/
def resolve (id : JobId) (entry : DlqState) (actor : String) (e : Engine) :
    Except Error Job × Engine :=
  if e.unreachable.contains .queue then (Queue.checkResolution entry >>= fun _ => offline, e)
  else
    match e.onQueue (Queue.resolve id entry e.now) with
    | (.ok j, e) => (.ok j, e.emit (.resolved id entry actor))
    | (.error x, e) => (.error x, e)

/-- Collects the changes of state of the circuits and passes them on to the observers. -/
def drainCircuit (e : Engine) : List CircuitEvent × Engine :=
  let (events, b) := e.breaker.drain
  (events, events.foldl (fun e x => e.emit (.circuitMoved x)) { e with breaker := b })

def rateUsage (now : Timestamp) (e : Engine) : List WindowUse × Engine :=
  let (uses, l) := e.limiter.usage e.config.rateLimit now
  (uses, { e with limiter := l })

/-- The spacing of all routes, by route. -/
def paces (e : Engine) : List PaceView :=
  (e.pacing.entries.mergeSort fun a b => !(b.1 < a.1)).map fun (route, p) =>
    ⟨route, p.delaySecs, p.lastSentAt⟩

def addWorker (worker : String) (e : Engine) : Engine :=
  { e with slots := e.slots ++ [⟨worker, none, 0⟩] }

def restarts? (worker : String) (e : Engine) : Option Nat :=
  (e.slots.find? fun s => s.worker = worker).map Slot.restarts

/-- Starts the loop of every worker that has none. -/
def spawnWorkers (e : Engine) : Engine :=
  let (slots, e) := e.slots.foldl (fun (slots, e) s =>
    match s.task with
    | some _ => (slots ++ [s], e)
    | none =>
      let (n, e) := e.spawn (.worker s.worker)
      (slots ++ [{ s with task := some n }], e)) ([], e)
  { e with slots := slots }

/-- The usual name of the worker with a number. -/
def workerName (n : Nat) : String := "worker-" ++ natText n

/-- Starts all loops; a second start does nothing. -/
def start (e : Engine) : Except Error Unit × Engine :=
  if e.isShutDown then (.error .alreadyShutDown, e)
  else if e.isStarted then (.ok (), e)
  else
    let e := { e with isStarted := true }
    let names := (List.range e.config.supervisor.workerCount).map workerName
    let e := (names.foldl (fun e w => e.addWorker w) e).spawnWorkers
    let (d, e) := e.spawn .dispatcher
    let (s, e) := e.spawn .supervisor
    let (h, e) := e.spawn .housekeeper
    (.ok (), { e with handles := e.handles ++ [d, s, h] })

/-- Waits for tasks one after the other, for a limited time each. -/
def joinEach (ms : Nat) : List Nat → Plan Unit
  | [] => .done ()
  | t :: ts => .step (.join t ms) fun _ => joinEach ms ts

/-- Tells all loops to end; gives the tasks of workers and those beside them. -/
def stopLoops (e : Engine) : List Nat × Engine :=
  (e.slots.filterMap Slot.task ++ e.handles,
    { e with
      isShutDown := true
      slots := e.slots.map fun s => { s with task := none }
      handles := [] })

def describeRegistry (e : Engine) : String :=
  Diagnostic.record "AdapterRegistry"
    [("platforms", Diagnostic.list (e.surroundings.platforms.map Diagnostic.quoted))]

def describeContext (e : Engine) : String :=
  Diagnostic.record "WorkerContext"
    [("adapters", e.describeRegistry), ("circuit", e.breaker.describe),
      ("rate_limiter", e.limiter.describe),
      ("materializer", Diagnostic.bool e.surroundings.materializer.isSome)]

def describePacing (e : Engine) : String :=
  Diagnostic.record "AdaptiveRateController"
    [("routes", natText e.pacing.size), ("max_delay_secs", floatText e.config.pacing.maxDelaySecs)]

def describeDispatcher (e : Engine) : String :=
  Diagnostic.record "ResultDispatcher"
    [("consumer_id", Diagnostic.quoted Dispatcher.usualName), ("stats", e.stats.describe)]

def describeSupervisor (e : Engine) : String :=
  Diagnostic.record "WorkerSupervisor"
    [("workers", natText e.slots.length), ("shutdown_cancelled", Diagnostic.bool e.isShutDown)]

def describeWorker (worker : String) : String :=
  Diagnostic.record "ExecutionWorker" [("worker_id", Diagnostic.quoted worker)]

def describe (e : Engine) : String :=
  Diagnostic.record "ExecutionRuntime"
    [("config", e.config.describe), ("adapters", e.describeRegistry), ("event_bus", e.bus.describe),
      ("task_count", natText e.handles.length), ("started", Diagnostic.bool e.isStarted),
      ("shutdown_cancelled", Diagnostic.bool e.isShutDown)]

/-- The stores of an unreachable database as diagnostic text. -/
def describeDatabase (staleAfter : Span) : List String :=
  [Diagnostic.record "PostgresExecutionQueue" [("pool_size", "0"), ("idle_connections", "0")],
    Diagnostic.record "PostgresResultInbox" [("pool_size", "0")],
    Diagnostic.record "PostgresIdempotencyStore" [("stale_after", AttemptLog.spanText staleAfter)],
    "PostgresHeartbeatStore"]

/-- The diagnostic text of a part of the engine. -/
def describePart? (part : String) (e : Engine) : Option String :=
  match part with
  | "queue" => some e.queue.describe
  | "inbox" => some e.inbox.describe
  | "idempotency" => some (AttemptLog.describe e.config.attempts.staleAfter e.attempts)
  | "heartbeats" => some (Liveness.describe e.liveness)
  | "circuit" => some e.breaker.describe
  | "rate_limiter" => some e.limiter.describe
  | "adaptive" => some e.describePacing
  | "context" => some e.describeContext
  | "dispatcher" => some e.describeDispatcher
  | "supervisor" => some e.describeSupervisor
  | "runtime" => some e.describe
  | _ => none

end Engine

namespace Schedule

/-- Tells all loops to end and waits for them, for a limited time each. -/
def shutDown (s : Schedule) : Schedule :=
  let (tasks, e) := s.engine.stopLoops
  (run (Engine.joinEach e.config.supervisor.shutdownTimeoutMs tasks) { s with engine := e }).2

end Schedule

end Courier
