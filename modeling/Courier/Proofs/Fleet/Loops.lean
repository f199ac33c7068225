import Courier.Proofs.Fleet.Basic

/-! What the loops of an engine are made of: actions that go on beside the errands, and errands. No
loop touches a leased job or calls the adapter but by processing a job. -/

namespace Courier

/-- A plan that is made of errands and of what goes on beside them. -/
inductive Plan.Made {α : Type} : Plan α → Prop where
  | done (a : α) : Made (.done a)
  | step {a : Action} {next : a.Reply → Plan α} : a.isForJob = false → a.isForeign = false →
      (∀ r, Made (next r)) → Made (.step a next)
  | errand (cfg : Config) (worker : String) (job : Job) {k : Except Failure Disposition → Plan α} :
      (∀ r, Made (k r)) → Made ((Worker.process cfg worker job).bind k)

open Plan

namespace Plan.Made

variable {α β : Type}

theorem once {a : Action} (beside : a.isForJob = false) (own : a.isForeign = false) :
    (Plan.step a Plan.done).Made := .step beside own fun r => .done r

theorem bind {p : Plan α} {f : α → Plan β} (hp : p.Made) (hf : ∀ a, (f a).Made) :
    (p.bind f).Made := by
  induction hp with
  | done a => exact hf a
  | step beside own _ ih => exact .step beside own ih
  | errand cfg worker job _ ih =>
    rw [bind_assoc]
    exact .errand cfg worker job ih

theorem andThen {p : Attempt α} {f : α → Attempt β} (hp : p.Made) (hf : ∀ a, (f a).Made) :
    (p.andThen f).Made := by
  refine hp.bind fun r => ?_
  cases r with
  | error e => exact .done _
  | ok a => exact hf a

theorem regardless {p : Attempt α} {k : Attempt β} (hp : p.Made) (hk : k.Made) :
    (p.regardless k).Made := by
  refine hp.bind fun r => ?_
  rcases r with (_ | _) | _
  · exact hk
  · exact .done _
  · exact hk

end Plan.Made

namespace Worker

theorem made_signal {α : Type} (worker status : String) {k : Attempt α} (hk : k.Made) :
    (signal worker status k).Made := by
  refine .step rfl rfl fun r => ?_
  rcases r with (_ | _) | _
  · exact hk
  · exact .done _
  · exact hk

theorem made_processEach (cfg : Config) (worker : String) (jobs : List Job) :
    (processEach cfg worker jobs).Made := by
  induction jobs with
  | nil => exact .done _
  | cons job jobs ih =>
    refine made_signal _ _ (.step rfl rfl fun _ => .errand cfg worker job fun r => ?_)
    rcases r with (_ | _) | _
    · exact ih
    · exact .done _
    · exact ih

theorem made_runOnce (cfg : Config) (worker : String) : (runOnce cfg worker).Made := by
  refine made_signal _ _ (.step rfl rfl fun r => ?_)
  cases r with
  | error e => exact .done _
  | ok jobs => exact (made_processEach cfg worker jobs).andThen fun _ => .done _

theorem made_stop (worker : String) : (stop worker).Made := by
  refine .step rfl rfl fun r => ?_
  rcases r with (_ | _) | _ <;> exact .done _

theorem made_rest (worker : String) (ms : Nat) : (rest worker ms).Made := by
  refine .step rfl rfl fun r => ?_
  cases r with
  | shutDown => exact made_stop worker
  | elapsed | noticed => exact .done _

theorem made_round (cfg : Config) (worker : String) : (round cfg worker).Made := by
  refine .step rfl rfl fun isShutDown => ?_
  cases isShutDown with
  | true => exact made_stop worker
  | false =>
    refine (made_runOnce cfg worker).bind fun r => ?_
    rcases r with (_ | _) | (_ | _)
    · exact made_rest worker _
    · exact .done _
    · exact made_rest worker _
    · exact .done _

end Worker

namespace Dispatcher

theorem made_deliver (consumer : String) (record : InboxRecord) (latencyMs : Int)
    (violated : Bool) : (deliver consumer record latencyMs violated).Made := by
  refine .step rfl rfl fun r => ?_
  rcases r with (_ | _) | _
  · exact .step rfl rfl fun _ => .done _
  · exact .done _
  · refine .step rfl rfl fun r => ?_
    cases r with
    | error e => exact .done _
    | ok => exact .step rfl rfl fun _ => .done _

theorem made_deliverEach (cfg : DispatcherConfig) (consumer : String) (applied : Nat)
    (records : List InboxRecord) : (deliverEach cfg consumer applied records).Made := by
  induction records generalizing applied with
  | nil => exact .done _
  | cons record records ih =>
    refine .step rfl rfl fun now => ?_
    have rest (latencyMs : Int) (violated : Bool) :
        ((deliver consumer record latencyMs violated).andThen fun taken =>
          deliverEach cfg consumer (if taken then applied + 1 else applied) records).Made :=
      (made_deliver consumer record latencyMs violated).andThen fun _ => ih _
    dsimp only
    split_ifs
    · exact .step rfl rfl fun _ => rest _ _
    · exact rest _ _

theorem made_runCycle (cfg : DispatcherConfig) (consumer : String) :
    (runCycle cfg consumer).Made := by
  refine .step rfl rfl fun r => ?_
  cases r with
  | error e => exact .done _
  | ok =>
    refine .step rfl rfl fun r => ?_
    cases r with
    | error e => exact .done _
    | ok records => exact made_deliverEach cfg consumer 0 records

theorem made_rest (cfg : DispatcherConfig) : (rest cfg).Made := by
  refine .step rfl rfl fun r => ?_
  cases r <;> exact .done _

theorem made_round (cfg : DispatcherConfig) (consumer : String) : (round cfg consumer).Made := by
  refine .step rfl rfl fun isShutDown => ?_
  cases isShutDown with
  | true => exact .done _
  | false =>
    refine (made_runCycle cfg consumer).bind fun r => ?_
    rcases r with (_ | _) | n
    · exact made_rest cfg
    · exact .done _
    · dsimp only
      split_ifs
      · exact .done _
      · exact made_rest cfg

end Dispatcher

namespace Supervisor

theorem made_findStale (now : Timestamp) (stale : List String) (workers : List (String × Span)) :
    (findStale now stale workers).Made := by
  induction workers generalizing stale with
  | nil => exact .done _
  | cons worker workers ih =>
    refine .step rfl rfl fun r => ?_
    rcases r with _ | (_ | b)
    · exact .done _
    · exact ih stale
    · exact ih _

theorem made_recover (workers : List (String × Span)) : (recover workers).Made := by
  refine .step rfl rfl fun now => (made_findStale now [] workers).andThen fun stale => ?_
  split_ifs
  · exact .done _
  · refine .step rfl rfl fun r => ?_
    cases r <;> exact .done _

theorem made_checkBeats (visibility : Span) : (checkBeats visibility).Made :=
  .step rfl rfl fun _ => made_recover _

theorem made_check (visibility : Span) : (check visibility).Made :=
  .step rfl rfl fun _ => (made_checkBeats visibility).andThen fun _ => .done _

theorem made_round (cfg : Config) : (round cfg).Made := by
  refine .step rfl rfl fun waking => ?_
  cases waking with
  | shutDown => exact .done _
  | elapsed | noticed =>
    refine (made_check _).bind fun r => ?_
    rcases r with (_ | _) | _ <;> exact .done _

end Supervisor

namespace Housekeeper

theorem made_tidy (cfg : LeaseConfig) : (tidy cfg).Made := by
  refine Made.regardless (.once rfl rfl) (Made.regardless (.once rfl rfl) ?_)
  refine .step rfl rfl fun now => ?_
  exact Made.regardless (.once rfl rfl) (Made.regardless (.once rfl rfl) (.done _))

theorem made_round (cfg : LeaseConfig) : (round cfg).Made := by
  refine .step rfl rfl fun waking => ?_
  cases waking with
  | shutDown => exact .done _
  | elapsed | noticed =>
    refine (made_tidy cfg).bind fun r => ?_
    rcases r with (_ | _) | _ <;> exact .done _

end Housekeeper

/-- Every loop is made of errands and of what goes on beside them. -/
theorem Loop.made_round (cfg : Config) (l : Loop) : (l.round cfg).Made := by
  cases l with
  | worker id => exact Worker.made_round cfg id
  | dispatcher => exact Dispatcher.made_round cfg.dispatcher _
  | supervisor => exact Supervisor.made_round cfg
  | housekeeper => exact Housekeeper.made_round cfg.lease

end Courier
