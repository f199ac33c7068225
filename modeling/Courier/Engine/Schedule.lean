import Courier.Engine.Perform

/-!
The schedule: tasks take turns, each running until it waits. Time moves only while a caller waits,
and then from one deadline to the next.
-/

namespace Courier

/-- A task that is under way. -/
inductive Progress where
  | ready (p : Plan Round)
  | waiting (w : Wait) (resume : Waking → Engine → Plan Round × Engine)

structure Task where
  number : Nat
  loop : Loop
  progress : Progress

structure Schedule where
  engine : Engine
  /-- Tasks that have not ended, in the order in which they were started. -/
  tasks : List Task

namespace Schedule

/-- How a turn of a task ends. -/
inductive Pause where
  | ended
  | waiting (w : Wait) (resume : Waking → Engine → Plan Round × Engine)

/-- Runs a loop from within a round until it waits or ends, for at most so many actions. -/
def runLoop (l : Loop) : Nat → Plan Round → Engine → Pause × Engine
  | 0, _, e => (.ended, e)
  | fuel + 1, .done .again, e => runLoop l fuel (l.round e.config) e
  | _ + 1, .done _, e => (.ended, e)
  | fuel + 1, .step a next, e =>
    match e.perform a with
    | .reply r e => runLoop l fuel (next r) e
    | .wait w resume e =>
      match w.over? e with
      | some (waking, e) =>
        let (r, e) := resume waking e
        runLoop l fuel (next r) e
      | none =>
        (.waiting w fun waking e =>
          let (r, e) := resume waking e
          (next r, e), e)

/-- No task performs more actions than this without waiting. -/
def turnLength : Nat := 10000000

/-- A turn of one task; the task afterwards, unless it ended, and whether it did anything. -/
def runTask (t : Task) (e : Engine) : Option Task × Bool × Engine :=
  let go (p : Plan Round) (e : Engine) : Option Task × Bool × Engine :=
    match runLoop t.loop turnLength p e with
    | (.ended, e) => (none, true, { e with tasks := e.tasks.finish t.number })
    | (.waiting w resume, e) => (some { t with progress := .waiting w resume }, true, e)
  match t.progress with
  | .ready p => go p e
  | .waiting w resume =>
    match w.over? e with
    | none => (some t, false, e)
    | some (waking, e) =>
      let (p, e) := resume waking e
      go p e

/-- One turn of every task. -/
def runEach : List Task → Engine → List Task × Bool × Engine
  | [], e => ([], false, e)
  | t :: ts, e =>
    let (t, moved, e) := runTask t e
    let (ts, others, e) := runEach ts e
    (t.toList ++ ts, moved || others, e)

/-- Takes in tasks that were started since. -/
def adopt (s : Schedule) : Schedule :=
  { engine := { s.engine with tasks := { s.engine.tasks with waiting := [] } }
    tasks := s.tasks ++ s.engine.tasks.waiting.map fun (n, l) => ⟨n, l, .ready (.done .again)⟩ }

/-- Turns for all until every task waits, in at most so many rounds. -/
def settleFor : Nat → Schedule → Schedule
  | 0, s => s
  | fuel + 1, s =>
    let s := s.adopt
    let (tasks, moved, e) := runEach s.tasks s.engine
    if moved then settleFor fuel ⟨e, tasks⟩ else ⟨e, tasks⟩

/-- Turns for all until every task waits. -/
def settle (s : Schedule) : Schedule := settleFor turnLength s

/-- The next deadline among the tasks, at most `limit`. -/
def nextDeadline (limit : Nat) (ts : List Task) : Nat :=
  ts.foldl (fun n t => match t.progress with
    | .waiting w _ => min n w.deadline
    | .ready _ => n) limit

/-- Lets the time reach a later moment. -/
def elapse (ms : Nat) (s : Schedule) : Schedule :=
  { s with engine := { s.engine with sleptMs := ms } }

/-- Lets tasks run and time pass, from `now` on, until a wait of the caller is over. A task whose
deadline is the caller's own comes after the caller. -/
def awaitFrom (w : Wait) (now : Nat) (s : Schedule) : Waking × Schedule :=
  let s := s.settle
  match w.over? s.engine with
  | some (waking, e) => (waking, { s with engine := e })
  | none =>
    let next := max (nextDeadline w.deadline s.tasks) (now + 1)
    if next < w.deadline then awaitFrom w next (s.elapse next)
    else (.elapsed, s.elapse w.deadline)
termination_by w.deadline - now
decreasing_by omega

def await (w : Wait) (s : Schedule) : Waking × Schedule := awaitFrom w s.engine.sleptMs s

/-- Carries out a plan of the caller, which waits for what it has to wait for. -/
def run {α : Type} : Plan α → Schedule → α × Schedule
  | .done a, s => (a, s)
  | .step a next, s =>
    match s.engine.perform a with
    | .reply r e => run (next r) { s with engine := e }
    | .wait w resume e =>
      let (waking, s) := await w { s with engine := e }
      let (r, e) := resume waking s.engine
      run (next r) { s with engine := e }

end Schedule

end Courier
