import Mathlib.Tactic.SplitIfs
import Courier.Proofs.Plan

/-! What a worker may do with one job, whatever it is answered: everything it asks for is about that
job, its lease, its attempt, its route and its intent, and it asks pacing before it sends. -/

namespace Courier

open Plan

/-- What `worker` may do with `job` when it is not on its way to a send. -/
def Action.Attends (worker : String) (job : Job) : Action → Prop
  | .renewLease id w _ | .completeJob id w | .releaseJob id w _ _ _ | .deadLetterJob id w _ _ =>
    id = job.id ∧ w = worker
  | .beginAttempt key | .completeAttempt key _ | .clearAttempt key => key = job.attemptKey
  | .appendEnvelope x => ∃ o t, x = .ofJob job o t
  | .requestPassage route | .cancelTrial route | .circuitSuccess route | .circuitFailure route
  | .requestRoom route _ | .refundRoom route _ | .pacingSuccess route | .pacingFailure route _ =>
    route = job.routeKey
  | .emit (.deferred id _ _) | .emit (.retried id _ _) | .emit (.completed id _)
  | .emit (.deadLettered id _ _) => id = job.id
  | .readClock | .drawUnit | .wakeDispatcher => True
  | _ => False

/-- What `worker` may do with `job`. -/
def Action.Serves (worker : String) (job : Job) : Action → Prop
  | .materialize i => i = job.intent
  | .callAdapter i => ∃ content : ContentReply, content.apply job.intent = some i
  | .pacingWait route _ _ | .pacingSend route _ => route = job.routeKey
  | a => a.Attends worker job

theorem Action.Attends.serves {worker : String} {job : Job} {a : Action}
    (h : a.Attends worker job) : a.Serves worker job := by
  cases a <;> first | exact h | exact h.elim

/-- Where a worker is on its way to a send. -/
inductive Approach where
  | fresh
  /-- It has read the clock and is about to ask how long to wait. -/
  | timed (t : Timestamp)
  /-- It asked at `t` and need not wait. -/
  | through (t : Timestamp)
  /-- It has read the clock again since. -/
  | ready (t s : Timestamp)
  /-- It does not come to a send any more. -/
  | past

/-- A worker asks once how long to wait, and sends once at most, only when it need not wait, and
with what it read off the clock after it had asked. -/
def approach (worker : String) (job : Job) : Rule Approach where
  allows g
    | .pacingWait route _ t => route = job.routeKey ∧ g = .timed t
    | .pacingSend route s => route = job.routeKey ∧ ∃ t, g = .ready t s
    | a => a.Serves worker job
  after g
    | ⟨.readClock, t⟩ =>
      match g with
      | .fresh => .timed t
      | .through u | .ready u _ => .ready u t
      | g => g
    | ⟨.pacingWait _ _ t, w⟩ => if Span.zero < w then .past else .through t
    | ⟨.pacingSend _ _, _⟩ => .past
    | _ => g
  ends _ := True

namespace Worker

variable {cfg : Config} {worker : String} {job : Job} {route : String} {held : Holdings}

theorem attends_returnPassage {α : Type} {p : Passage} {k : Plan α} (hr : route = job.routeKey)
    (h : k.Uses (Action.Attends worker job)) :
    (returnPassage route p k).Uses (Action.Attends worker job) := by
  unfold returnPassage
  split_ifs
  · exact ⟨hr, fun _ => h⟩
  · exact h

theorem attends_returnAll {α : Type} {k : Plan α} (hr : held.route = job.routeKey)
    (h : k.Uses (Action.Attends worker job)) :
    (returnAll held k).Uses (Action.Attends worker job) :=
  ⟨hr, fun _ => attends_returnPassage hr h⟩

theorem attends_handBack {α : Type} {k : Plan α} (hr : held.route = job.routeKey)
    (h : k.Uses (Action.Attends worker job)) :
    (handBack held k).Uses (Action.Attends worker job) :=
  attends_returnPassage hr ⟨hr, fun _ => h⟩

theorem attends_defer (reason : Deferral) (t : Timestamp) :
    (defer worker job reason t).Uses (Action.Attends worker job) := by
  refine ⟨⟨rfl, rfl⟩, fun r => ?_⟩
  cases r with
  | error e => trivial
  | ok => exact ⟨rfl, fun _ => trivial⟩

theorem attends_publish (o : Outcome) (d : Disposition) :
    (publish job o d).Uses (Action.Attends worker job) := by
  refine ⟨trivial, fun now => ⟨⟨o, now, rfl⟩, fun r => ?_⟩⟩
  rcases r with _ | (_ | _)
  · trivial
  · exact ⟨rfl, fun _ => trivial⟩
  · exact ⟨trivial, fun _ => ⟨rfl, fun _ => trivial⟩⟩

theorem attends_deadLetter (reason : String) (o : Outcome) :
    (deadLetter worker job reason o).Uses (Action.Attends worker job) := by
  refine ⟨⟨rfl, rfl⟩, fun r => ?_⟩
  cases r with
  | error e => trivial
  | ok => exact ⟨rfl, fun _ => attends_publish o _⟩

theorem attends_settle (p : Passage) (o : Outcome) (hr : route = job.routeKey) :
    (settle cfg worker job route p o).Uses (Action.Attends worker job) := by
  unfold settle
  split_ifs
  · refine ⟨hr, fun _ => ⟨hr, fun _ => ⟨rfl, fun r => ?_⟩⟩⟩
    cases r with
    | error e => trivial
    | ok =>
      refine ⟨⟨rfl, rfl⟩, fun r => ?_⟩
      rcases r with (_ | _) | _
      · exact attends_publish o _
      · trivial
      · exact attends_publish o _
  · refine ⟨hr, fun _ => ⟨hr, fun _ => ⟨rfl, fun r => ?_⟩⟩⟩
    cases r with
    | error e => trivial
    | ok =>
      dsimp only
      split_ifs
      · refine ⟨trivial, fun _ => ⟨trivial, fun _ => ⟨⟨rfl, rfl⟩, fun r => ?_⟩⟩⟩
        cases r with
        | error e => trivial
        | ok => exact ⟨rfl, fun _ => trivial⟩
      · exact attends_deadLetter _ o
  · refine attends_returnPassage hr ⟨rfl, fun r => ?_⟩
    cases r with
    | error e => trivial
    | ok =>
      refine ⟨⟨rfl, rfl⟩, fun r => ?_⟩
      cases r with
      | error e => trivial
      | ok => exact attends_publish o _

/-- A plan that only attends to its job may be followed from anywhere. -/
theorem approach_of_attends {α : Type} {p : Plan α} (h : p.Uses (Action.Attends worker job))
    (g : Approach) : p.Keeps (approach worker job) g := by
  refine h.keeps (fun g a attends => ?_) (fun _ => trivial) g
  cases a <;> first | exact attends.serves | exact attends.elim

theorem approach_carryOut (hr : held.route = job.routeKey) (t : Timestamp) :
    (carryOut cfg worker job held).Keeps (approach worker job) (.through t) := by
  refine ⟨rfl, fun content => ?_⟩
  dsimp only
  cases hc : content.apply job.intent with
  | none =>
    refine approach_of_attends ?_ _
    exact attends_returnAll hr trivial
  | some intent =>
    refine ⟨⟨rfl, rfl⟩, fun r => ?_⟩
    rcases r with (_ | _) | _
    · refine approach_of_attends ?_ _
      refine attends_handBack hr ⟨rfl, fun r => ?_⟩
      cases r <;> trivial
    · refine approach_of_attends ?_ _
      exact attends_returnAll hr trivial
    · refine ⟨trivial, fun sent => ⟨⟨hr, t, rfl⟩, fun _ => ⟨⟨content, hc⟩, fun reply =>
        ⟨⟨rfl, rfl⟩, fun r => approach_of_attends ?_ _⟩⟩⟩⟩
      rcases r with (_ | _) | _
      · exact attends_settle _ _ hr
      · exact attends_returnPassage hr trivial
      · exact attends_settle _ _ hr

theorem approach_beginAttempt (hr : held.route = job.routeKey) (t : Timestamp) :
    (beginAttempt cfg worker job held).Keeps (approach worker job) (.through t) := by
  refine ⟨rfl, fun r => ?_⟩
  rcases r with _ | (_ | ⟨_ | _, since⟩ | record)
  · refine approach_of_attends ?_ _
    exact attends_returnAll hr trivial
  · exact approach_carryOut hr t
  · exact approach_of_attends (attends_handBack hr (attends_defer _ _)) _
  · exact approach_of_attends (attends_handBack hr (attends_deadLetter _ _)) _
  · refine approach_of_attends ?_ _
    refine attends_handBack hr ⟨⟨rfl, rfl⟩, fun r => ?_⟩
    cases r with
    | error e => trivial
    | ok => exact attends_publish _ _

/-- Processing a job asks for the wait of its route before it sends, and reads the clock again. -/
theorem approach_process (cfg : Config) (worker : String) (job : Job) :
    (process cfg worker job).Keeps (approach worker job) .fresh := by
  refine ⟨trivial, fun now => ⟨⟨rfl, rfl⟩, fun wait => ?_⟩⟩
  dsimp only
  split_ifs with waits
  · exact approach_of_attends (attends_defer _ _) _
  · have through : (approach worker job).after (.timed now)
        ⟨.pacingWait job.routeKey (lag job now) now, wait⟩ = .through now := if_neg waits
    refine ⟨rfl, fun passage => ?_⟩
    dsimp only
    split_ifs
    · exact approach_of_attends (attends_defer _ _) _
    · refine ⟨rfl, fun room => ?_⟩
      dsimp only
      split_ifs
      · exact approach_of_attends (attends_returnPassage rfl (attends_defer _ _)) _
      · have begun : (beginAttempt cfg worker job ⟨job.routeKey, passage, now⟩).Keeps
            (approach worker job) (.through now) := approach_beginAttempt rfl now
        rw [← through] at begun
        exact begun

/-- Processing a job serves that job. -/
theorem serves_process (cfg : Config) (worker : String) (job : Job) :
    (process cfg worker job).Uses (Action.Serves worker job) := by
  refine (approach_process cfg worker job).uses fun g a allowed => ?_
  cases a with
  | pacingWait | pacingSend => exact allowed.1
  | _ => exact allowed

end Worker

end Courier
