import Mathlib.Logic.Relation
import Courier.Proofs.Engine.Effect

/-! Workers at the same time. A fleet is an engine and the calls of `Worker.process` that work on
it. They take turns action by action, in any order; each adapter call lasts as long as it likes,
each may stop for good between two actions, and whatever else goes on with the stores goes on
between the turns. -/

namespace Courier

open Plan

/-- Actions that are only taken on behalf of a leased job. -/
def Action.isForJob : Action → Bool
  | .renewLease _ _ _ | .completeJob _ _ | .releaseJob _ _ _ _ _ | .deadLetterJob _ _ _ _
  | .beginAttempt _ | .completeAttempt _ _ | .clearAttempt _ | .appendEnvelope _ => true
  | _ => false

inductive Stage where
  /-- About to go on with a plan. -/
  | acting (p : Attempt Disposition)
  /-- An adapter call is in flight. -/
  | calling (i : Intent) (next : AdapterReply → Attempt Disposition)

namespace Stage

/-- What is still to be done. -/
def plan : Stage → Attempt Disposition
  | acting p => p
  | calling i next => .step (.callAdapter i) next

def isCalling : Stage → Bool
  | acting _ => false
  | calling _ _ => true

end Stage

/-- One call of `Worker.process`. -/
structure Errand where
  worker : String
  job : Job
  /-- What has been done and answered so far. -/
  past : List Deed
  stage : Stage
  isStopped : Bool

namespace Errand

def begin (cfg : Config) (worker : String) (job : Job) : Errand :=
  ⟨worker, job, [], .acting (Worker.process cfg worker job), false⟩

/-- The errand after one more answer. -/
def onward (x : Errand) (a : Action) (r : a.Reply) (next : a.Reply → Attempt Disposition) :
    Errand :=
  { x with past := x.past ++ [⟨a, r⟩], stage := .acting (next r) }

/-- One turn of an errand, and what it makes of the engine. Answers from outside come when they
come and may be any; an adapter call may come back even to a worker that has stopped. -/
inductive Move (e : Engine) (x : Errand) : Engine → Errand → Prop where
  | act {a : Action} {next : a.Reply → Attempt Disposition} {r : a.Reply} {e' : Engine} :
      x.isStopped = false → x.stage = .acting (.step a next) → a.isForeign = false →
      e.perform a = .reply r e' → Move e x e' (x.onward a r next)
  | draw {next : Float → Attempt Disposition} (unit : Float) : x.isStopped = false →
      x.stage = .acting (.step .drawUnit next) → Move e x e (x.onward .drawUnit unit next)
  | supply {i : Intent} {next : ContentReply → Attempt Disposition} (r : ContentReply) :
      x.isStopped = false → x.stage = .acting (.step (.materialize i) next) →
      Move e x e (x.onward (.materialize i) r next)
  | depart {i : Intent} {next : AdapterReply → Attempt Disposition} : x.isStopped = false →
      x.stage = .acting (.step (.callAdapter i) next) →
      Move e x e { x with stage := .calling i next }
  | arrive {i : Intent} {next : AdapterReply → Attempt Disposition} (r : AdapterReply) :
      x.stage = .calling i next → Move e x e (x.onward (.callAdapter i) r next)
  | stop : Move e x e { x with isStopped := true }

/-- Whether the errand has run to its end. -/
def isDone (x : Errand) : Bool :=
  match x.stage with
  | .acting (.done _) => true
  | _ => false

/-- Whether the errand is on its way still. -/
def isRunning (x : Errand) : Bool := !x.isStopped && !x.isDone

end Errand

/-- What goes on beside the errands: the other actions of all loops, what callers ask of the
queue, and, with the stores as they are, anything else: time passes, gates open and close, and
store calls are made to fail or to get through. -/
inductive Engine.Outside (e : Engine) : Engine → Prop where
  | loop {a : Action} {r : a.Reply} {e' : Engine} : a.isForJob = false → a.isForeign = false →
      e.perform a = .reply r e' → Outside e e'
  | enqueue (j : Job) : Outside e (e.enqueue j).2
  | replay (id : JobId) (actor : String) : Outside e (e.replay id actor).2
  | resolve (id : JobId) (entry : DlqState) (actor : String) :
      Outside e (e.resolve id entry actor).2
  | elsewhere {e' : Engine} : e.KeptBut none e' → Outside e e'

structure Fleet where
  engine : Engine
  errands : List Errand

namespace Fleet

def idle (e : Engine) : Fleet := ⟨e, []⟩

/-- One step of a fleet. Any worker may begin with any job at any time: with one that a lease gave
it, and just as well with one whose lease it has lost. -/
inductive Step (f : Fleet) : Fleet → Prop where
  | begin (cfg : Config) (worker : String) (job : Job) :
      Step f { f with errands := f.errands ++ [.begin cfg worker job] }
  | move {n : Nat} {x x' : Errand} {e' : Engine} : f.errands[n]? = some x →
      x.Move f.engine e' x' → Step f ⟨e', f.errands.set n x'⟩
  | outside {e' : Engine} : f.engine.Outside e' → Step f { f with engine := e' }

abbrev Steps : Fleet → Fleet → Prop := Relation.ReflTransGen Step

end Fleet

end Courier
