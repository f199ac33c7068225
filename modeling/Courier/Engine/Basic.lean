import Courier.Dispatcher
import Courier.Engine.Surroundings
import Courier.Pacing
import Courier.Supervisor

/-!
The engine: all stores, gates and figures that its tasks share, the clock, and the book of its
tasks. Everything that a task reads or changes is in here.
-/

namespace Courier

/-- The loops that tasks run. -/
inductive Loop where
  | worker (id : String)
  | dispatcher
  | supervisor
  | housekeeper

/-- The name under which the dispatcher leases envelopes. -/
def Dispatcher.usualName : String := "dispatcher-0"

/-- One round of a loop. -/
def Loop.round (cfg : Config) : Loop → Plan Round
  | worker id => Worker.round cfg id
  | dispatcher => Dispatcher.round cfg.dispatcher Dispatcher.usualName
  | supervisor => Supervisor.round cfg
  | housekeeper => Housekeeper.round cfg.lease

/-- A worker in the hands of the supervisor. -/
structure Slot where
  worker : String
  /-- The task that runs its loop. -/
  task : Option Nat
  restarts : Nat

/-- The tasks of an engine, numbered in the order in which they were started. -/
structure TaskBook where
  next : Nat
  /-- Tasks that have not run yet, first one first. -/
  waiting : List (Nat × Loop)
  ended : List Nat

namespace TaskBook

def empty : TaskBook := ⟨0, [], []⟩

/-- Enters a task; gives its number. -/
def start (l : Loop) (b : TaskBook) : Nat × TaskBook :=
  (b.next, { b with next := b.next + 1, waiting := b.waiting ++ [(b.next, l)] })

def finish (task : Nat) (b : TaskBook) : TaskBook := { b with ended := b.ended ++ [task] }

def hasEnded (task : Nat) (b : TaskBook) : Bool := b.ended.contains task

end TaskBook

structure Engine where
  config : Config
  /-- The time on the clock, apart from the time slept. -/
  clock : Timestamp
  sleptMs : Nat
  ids : IdSupply
  queue : Queue
  inbox : Inbox
  attempts : AttemptLog
  liveness : Liveness
  breaker : Breaker
  limiter : Limiter
  pacing : Pacing Float
  bus : Bus Event
  stats : DeliveryStats
  /-- A notice to the dispatcher that it has not taken yet. -/
  noticed : Bool
  surroundings : Surroundings
  /-- Stores that stand in a database which cannot be reached. -/
  unreachable : List Store
  /-- Intents that scripted adapters were called with. -/
  calls : List Intent
  /-- Envelopes that the producer took. -/
  taken : List Envelope
  slots : List Slot
  tasks : TaskBook
  /-- The tasks beside the workers. -/
  handles : List Nat
  isStarted : Bool
  isShutDown : Bool

namespace Engine

def create (config : Config) (start : Timestamp) (surroundings : Surroundings) : Engine where
  config := config
  clock := start
  sleptMs := 0
  ids := .start
  queue := .empty
  inbox := .empty
  attempts := .empty
  liveness := .empty
  breaker := .empty
  limiter := .empty
  pacing := .empty
  bus := .create Bus.usualCapacity
  stats := .zero
  noticed := false
  surroundings := surroundings
  unreachable := []
  calls := []
  taken := []
  slots := []
  tasks := .empty
  handles := []
  isStarted := false
  isShutDown := false

def now (e : Engine) : Timestamp := e.clock.add (.ofMillis e.sleptMs)

/-- Moves the clock; fails at the ends of time. -/
def advance? (d : Span) (e : Engine) : Option Engine :=
  (e.clock.add? d).map fun t => { e with clock := t }

def drawId (e : Engine) : Uuid × Engine := (e.ids.next, { e with ids := e.ids.advance })

/-- Tells the observers. -/
def emit (n : Notice) (e : Engine) : Engine := { e with bus := e.bus.publish ⟨e.now, n⟩ }

/-- A store call that an unreachable database answers with `offline`. A fault that is due comes
before the store is touched; a database is not subject to faults. -/
def call {α : Type} (c : StoreCall) (offline : Except Error α)
    (body : Engine → Except Error α × Engine) (e : Engine) : Except Failure α × Engine :=
  if e.unreachable.contains c.store then (offline.mapError .error, e)
  else
    let (fault, s) := e.surroundings.takeFault c
    let e := { e with surroundings := s }
    match fault with
    | .fail => (.error (.error (.storeOffline c.name)), e)
    | .lost => (.error (.error (.storeLost c.name)), e)
    | .crash => (.error .crash, e)
    | .none =>
      let (r, e) := body e
      (r.mapError .error, e)

/-- What a database says that cannot be reached. -/
def offline {α : Type} : Except Error α := .error .databaseUnreachable

/-- An operation of the queue that gives a result and the next queue. -/
def onQueue {α : Type} (f : Queue → Except Error (α × Queue)) (e : Engine) :
    Except Error α × Engine :=
  match f e.queue with
  | .ok (a, q) => (.ok a, { e with queue := q })
  | .error x => (.error x, e)

/-- An operation of the queue without a result of its own. -/
def updateQueue (f : Queue → Except Error Queue) : Engine → Except Error Unit × Engine :=
  onQueue fun q => (f q).map fun q => ((), q)

/-- Starts a loop as a task. -/
def spawn (l : Loop) (e : Engine) : Nat × Engine :=
  let (n, b) := e.tasks.start l
  (n, { e with tasks := b })

/-- Starts again the loops of workers that have ended. -/
def restartDead (e : Engine) : List String × Engine :=
  if e.isShutDown then ([], e)
  else
    let rec go : List Slot → Engine → List String × List Slot × Engine
      | [], e => ([], [], e)
      | s :: rest, e =>
        if s.task.any e.tasks.hasEnded then
          let (n, e) := e.spawn (.worker s.worker)
          let (names, slots, e) := go rest e
          (s.worker :: names, ⟨s.worker, some n, successor32 s.restarts⟩ :: slots, e)
        else
          let (names, slots, e) := go rest e
          (names, s :: slots, e)
    let (names, slots, e) := go e.slots e
    (names, { e with slots := slots })

end Engine

end Courier
