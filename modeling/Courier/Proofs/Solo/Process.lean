import Courier.Proofs.Inbox.Run
import Courier.Proofs.Solo.Caller
import Courier.Worker.Process

/-! What a worker leaves behind when it has taken a leased job through its gates and nobody else has
touched the stores. It never fails and never loses the lease, and how it disposed of the job says
what has become of the job, of the attempt at it and of its envelope, and whether the adapter was
called. -/

namespace Courier

open Plan

namespace AttemptLog

/-- An attempt that is given up is forgotten. -/
theorem get?_clear_inProgress {key : String} {log : AttemptLog} {record : AttemptRecord}
    (stored : log.get? key = some record) (underWay : record.state = .inProgress) :
    (clear key log).get? key = none := by
  have state := get?_clear key log key
  rw [stored, if_pos ⟨rfl, congrArg some underWay⟩] at state
  exact Option.map_eq_none_iff.1 state

end AttemptLog

/-- Whatever its content, an intent goes to the same platform. -/
theorem ContentReply.apply_platform {content : ContentReply} {i i' : Intent}
    (h : content.apply i = some i') : i'.platform = i.platform := by
  unfold apply at h
  split at h
  · cases h
    rfl
  · split at h <;> cases h <;> rfl
  · cases h
  · cases h
    rfl

/-- A materializer that does not crash leaves an intent to carry out. -/
theorem ContentReply.exists_apply {content : ContentReply} {i : Intent}
    (calm : Deed.isCrash ⟨.materialize i, content⟩ = false) : ∃ i', content.apply i = some i' := by
  cases content with
  | payload | noMaterializer => exact ⟨_, rfl⟩
  | error =>
    cases hp : i.fallbackPayload with
    | none | some => exact ⟨_, by rw [apply, hp]⟩
  | crashed => cases calm

/-- Only an adapter itself reports a failure of the environment. -/
theorem AdapterReply.eq_outcome {r : AdapterReply} {platform : String}
    (h : (r.toOutcome platform).isEnvironmentFailure = true) :
    r = .outcome (r.toOutcome platform) := by
  cases r with
  | outcome o => rfl
  | error | crashed | noAdapter => cases h

/-- What the disposition of a job says of all the rest. A count of attempts that is zero after a
lease has come round; it stays zero when the attempt is taken back. -/
def Disposition.Tells (j : Job) (before after : Desk) : Disposition → Prop
  | deferred _ =>
    (∃ k, after.job = some k ∧ k.state = .queued ∧ k.attemptCount = j.attemptCount - 1) ∧
      after.replies = [] ∧ after.attempts = before.attempts ∧ after.inbox = before.inbox
  | retried =>
    (∃ k, after.job = some k ∧ k.state = .queued ∧ k.attemptCount = j.attemptCount) ∧
      (∃ o, after.replies = [.outcome o] ∧ o.isEnvironmentFailure = true) ∧
      j.attemptCount < j.maxAttempts ∧ Table.get? after.attempts j.attemptKey = none ∧
      after.inbox = before.inbox
  | deadLettered =>
    (∃ k, after.job = some k ∧ k.state = .dlq ∧ k.dlqState = some .awaitingManualAction) ∧
      after.inbox.recordsFor j.id = 1 ∧
      ((∃ record, Table.get? before.attempts j.attemptKey = some record ∧
          record.state = .inProgress ∧ after.begun = [.underWay true record.updatedAt] ∧
          after.replies = [] ∧ after.attempts = before.attempts) ∨
        ((∃ o, after.replies = [.outcome o] ∧ o.isEnvironmentFailure = true) ∧
          j.maxAttempts ≤ j.attemptCount ∧ Table.get? after.attempts j.attemptKey = none))
  | completed =>
    (∃ k, after.job = some k ∧ k.state = .completed) ∧ after.inbox.recordsFor j.id = 1 ∧
      ∃ r o, after.replies = [r] ∧ o = r.toOutcome j.intent.platform ∧
        o.isEnvironmentFailure = false ∧
        (o.isSuccess = true → ∃ record, Table.get? after.attempts j.attemptKey = some record ∧
          record.state = .done ∧ record.metadata = o.toJson) ∧
        (o.isSuccess = false → Table.get? after.attempts j.attemptKey = none)
  | duplicate =>
    (∃ k, after.job = some k ∧ k.state = .completed) ∧ after.inbox.recordsFor j.id = 1 ∧
      after.replies = [] ∧ after.attempts = before.attempts ∧
      ∃ record, Table.get? before.attempts j.attemptKey = some record ∧ record.state = .done
  | leaseLost => False

/-- A result that is no failure, and that tells of everything. -/
def Told (j : Job) (before after : Desk) (r : Except Failure Disposition) : Prop :=
  ∃ d, r = .ok d ∧ d.Tells j before after

/-- `worker` still holds `j` with its attempts counted so, and nothing has gone to the inbox. -/
structure Desk.InHand (worker : String) (j : Job) (before w : Desk) : Prop where
  held : ∃ k, w.Holds worker k ∧ k.attemptCount = j.attemptCount
  inbox : w.inbox = before.inbox

namespace Worker

variable {cfg : Config} {worker route : String} {j : Job} {before w : Desk}

theorem yields_returnPassage {α : Type} {id : JobId} {post : Desk → α → Prop} {p : Passage}
    {k : Plan α} (h : k.Yields id post w) : (returnPassage route p k).Yields id post w := by
  unfold returnPassage
  split_ifs
  · exact yields_aside rfl fun _ _ => h
  · exact h

theorem yields_handBack {α : Type} {id : JobId} {post : Desk → α → Prop} {held : Holdings}
    {k : Plan α} (h : k.Yields id post w) : (handBack held k).Yields id post w :=
  yields_returnPassage (yields_aside rfl fun _ _ => h)

/-- A gate that refuses leaves everything as it was but for the attempt that is taken back. -/
theorem yields_defer (hand : Desk.InHand worker j before w) (attempts : w.attempts = before.attempts)
    (uncalled : w.replies = []) (reason : Deferral) (t : Timestamp) :
    (defer worker j reason t).Yields j.id (Told j before) w := by
  obtain ⟨k, held, count⟩ := hand.held
  refine yields_releaseJob held fun now => yields_aside rfl fun _ _ => ⟨_, rfl, ?_⟩
  exact ⟨⟨_, rfl, rfl, congrArg (· - 1) count⟩, uncalled, attempts, hand.inbox⟩

/-- After a job has ended there is one envelope for it. -/
theorem yields_publish {o : Outcome} {d : Disposition} (sound : w.inbox.Sound)
    (tells : ∀ inbox : Inbox, inbox.recordsFor j.id = 1 →
      d.Tells j before { w with inbox := inbox }) :
    (publish j o d).Yields j.id (Told j before) w := by
  refine yields_aside rfl fun now _ => yields_appendEnvelope sound fun isNew inbox one => ?_
  have told : Told j before { w with inbox := inbox } (.ok d) := ⟨d, rfl, tells inbox one⟩
  dsimp only
  split_ifs
  · exact yields_aside rfl fun _ _ => yields_aside rfl fun _ _ => told
  · exact yields_aside rfl fun _ _ => told

theorem yields_deadLetter {k : Job} {reason : String} {o : Outcome} (held : w.Holds worker k)
    (sound : w.inbox.Sound) (tells : ∀ now inbox, Inbox.recordsFor j.id inbox = 1 →
      Disposition.deadLettered.Tells j before
        { w with job := some (Queue.buried .awaitingManualAction reason now k), inbox := inbox }) :
    (deadLetter worker j reason o).Yields j.id (Told j before) w :=
  yields_deadLetterJob held fun now => yields_aside rfl fun _ _ =>
    yields_publish sound fun inbox one => tells now inbox one

section Settle

variable {r : AdapterReply} {o : Outcome} {record : AttemptRecord}

theorem yields_onSuccess (hand : Desk.InHand worker j before w) (sound : before.inbox.Sound)
    (called : w.replies = [r]) (ho : o = r.toOutcome j.intent.platform)
    (success : o.isSuccess = true) :
    (onSuccess worker j route o).Yields j.id (Told j before) w := by
  obtain ⟨k, held, -⟩ := hand.held
  refine yields_aside rfl fun _ _ => yields_aside rfl fun _ _ => ?_
  refine yields_completeAttempt fun done => yields_completeJob held fun now => ?_
  refine yields_publish (hand.inbox ▸ sound) fun inbox one => ?_
  refine ⟨⟨_, rfl, rfl⟩, one, r, o, called, ho, by simp [Outcome.isEnvironmentFailure, success],
    fun _ => ⟨⟨j.attemptKey, .done, done, o.toJson⟩, ?_, rfl, rfl⟩, fun failed => ?_⟩
  · exact (Table.get?_insert _ _ _ _).trans (if_pos rfl)
  · rw [success] at failed
    cases failed

/-- The budget of attempts decides whether the job waits for another one or is buried. -/
theorem yields_onEnvironmentFailure (hand : Desk.InHand worker j before w)
    (sound : before.inbox.Sound) (called : w.replies = [.outcome o])
    (stored : Table.get? w.attempts j.attemptKey = some record)
    (underWay : record.state = .inProgress) (strained : o.isEnvironmentFailure = true) :
    (onEnvironmentFailure cfg worker j route o).Yields j.id (Told j before) w := by
  obtain ⟨k, held, count⟩ := hand.held
  have forgotten := AttemptLog.get?_clear_inProgress stored underWay
  refine yields_aside rfl fun _ _ => yields_aside rfl fun _ _ => yields_clearAttempt ?_
  dsimp only
  split_ifs with another
  · refine yields_aside rfl fun now _ => yields_aside rfl fun unit _ => ?_
    refine yields_releaseJob held fun now => yields_aside rfl fun _ _ => ⟨_, rfl, ?_⟩
    exact ⟨⟨_, rfl, rfl, count⟩, ⟨o, called, strained⟩, of_decide_eq_true another, forgotten,
      hand.inbox⟩
  · refine yields_deadLetter held (hand.inbox ▸ sound) fun now inbox one => ?_
    have spent : j.maxAttempts ≤ j.attemptCount :=
      Nat.le_of_not_lt fun less => another (decide_eq_true less)
    exact ⟨⟨_, rfl, rfl, rfl⟩, one, Or.inr ⟨⟨o, called, strained⟩, spent, forgotten⟩⟩

theorem yields_onFinalFailure {p : Passage} (hand : Desk.InHand worker j before w)
    (sound : before.inbox.Sound) (called : w.replies = [r])
    (ho : o = r.toOutcome j.intent.platform)
    (stored : Table.get? w.attempts j.attemptKey = some record)
    (underWay : record.state = .inProgress) (failed : o.isSuccess = false)
    (calm : o.isEnvironmentFailure = false) :
    (onFinalFailure worker j route p o).Yields j.id (Told j before) w := by
  obtain ⟨k, held, -⟩ := hand.held
  refine yields_returnPassage (yields_clearAttempt (yields_completeJob held fun now => ?_))
  refine yields_publish (hand.inbox ▸ sound) fun inbox one => ?_
  refine ⟨⟨_, rfl, rfl⟩, one, r, o, called, ho, calm, fun success => ?_, fun _ => ?_⟩
  · rw [failed] at success
    cases success
  · exact AttemptLog.get?_clear_inProgress stored underWay

theorem yields_settle {p : Passage} (hand : Desk.InHand worker j before w)
    (sound : before.inbox.Sound) (called : w.replies = [r])
    (stored : Table.get? w.attempts j.attemptKey = some record)
    (underWay : record.state = .inProgress) :
    (settle cfg worker j route p (r.toOutcome j.intent.platform)).Yields j.id (Told j before) w := by
  unfold settle
  split_ifs with success strained
  · exact yields_onSuccess hand sound called rfl success
  · have called : w.replies = [.outcome (r.toOutcome j.intent.platform)] := by
      rw [called, ← AdapterReply.eq_outcome strained]
    exact yields_onEnvironmentFailure hand sound called stored underWay strained
  · exact yields_onFinalFailure hand sound called rfl stored underWay (by simpa using success)
      (by simpa using strained)

end Settle

/-- An attempt that has begun is carried out on the lease that the worker holds. -/
theorem yields_carryOut {record : AttemptRecord} (h : Holdings)
    (hand : Desk.InHand worker j before w) (sound : before.inbox.Sound) (uncalled : w.replies = [])
    (stored : Table.get? w.attempts j.attemptKey = some record)
    (underWay : record.state = .inProgress) :
    (carryOut cfg worker j h).Yields j.id (Told j before) w := by
  obtain ⟨k, held, count⟩ := hand.held
  refine yields_aside rfl fun content calm => ?_
  obtain ⟨i, hi⟩ := ContentReply.exists_apply calm
  simp only [hi]
  refine yields_renewLease held fun until_ now => yields_aside rfl fun sent _ => ?_
  refine yields_aside rfl fun _ _ => yields_callAdapter fun r => ?_
  refine yields_renewLease (k := Queue.renewed until_ now k) ⟨rfl, held.2⟩ fun until_' now' => ?_
  rw [ContentReply.apply_platform hi]
  refine yields_settle ⟨⟨_, ⟨rfl, held.2⟩, count⟩, hand.inbox⟩ sound ?_ stored underWay
  simp only [uncalled, List.nil_append]

/-- What the log of attempts knows decides how the last gate is passed. -/
theorem yields_beginAttempt (h : Holdings) (hand : Desk.InHand worker j before w)
    (sound : before.inbox.Sound) (attempts : w.attempts = before.attempts)
    (unbegun : w.begun = []) (uncalled : w.replies = []) :
    (beginAttempt cfg worker j h).Yields j.id (Told j before) w := by
  obtain ⟨k, held, count⟩ := hand.held
  refine Plan.yields_beginAttempt (fun _ now => ?_) fun record b stored known => ?_
  · have stored : Table.get? (w.attempts.insert j.attemptKey ⟨j.attemptKey, .inProgress, now, .null⟩)
        j.attemptKey = some ⟨j.attemptKey, .inProgress, now, .null⟩ :=
      (Table.get?_insert _ _ _ _).trans (if_pos rfl)
    exact yields_carryOut h ⟨hand.held, hand.inbox⟩ sound uncalled stored rfl
  · rw [attempts] at stored
    rcases known with ⟨done, rfl⟩ | ⟨underWay, stale, rfl⟩
    · refine yields_handBack (yields_completeJob held fun now => ?_)
      refine yields_publish (hand.inbox ▸ sound) fun inbox one => ?_
      exact ⟨⟨_, rfl, rfl⟩, one, uncalled, attempts, record, stored, done⟩
    cases stale with
    | false =>
      have hand : Desk.InHand worker j before
          { w with begun := w.begun ++ [.underWay false record.updatedAt] } :=
        ⟨hand.held, hand.inbox⟩
      exact yields_handBack (yields_defer hand attempts uncalled _ _)
    | true =>
      refine yields_handBack (yields_deadLetter held (hand.inbox ▸ sound) fun now inbox one => ?_)
      have begun : w.begun ++ [.underWay true record.updatedAt] =
          [.underWay true record.updatedAt] := by rw [unbegun, List.nil_append]
      exact ⟨⟨_, rfl, rfl, rfl⟩, one, Or.inl ⟨record, stored, underWay, begun, uncalled, attempts⟩⟩

theorem yields_process (hand : Desk.InHand worker j w w) (sound : w.inbox.Sound)
    (unbegun : w.begun = []) (uncalled : w.replies = []) :
    (process cfg worker j).Yields j.id (Told j w) w := by
  have refused : ∀ reason t, (defer worker j reason t).Yields j.id (Told j w) w :=
    yields_defer hand rfl uncalled
  refine yields_aside rfl fun now _ => yields_aside rfl fun wait _ => ?_
  split_ifs
  · exact refused _ _
  refine yields_aside rfl fun passage _ => ?_
  split_ifs
  · exact refused _ _
  refine yields_aside rfl fun room _ => ?_
  split_ifs
  · exact yields_returnPassage (refused _ _)
  · exact yields_beginAttempt _ hand sound rfl unbegun uncalled

variable {e e' : Engine} {h : List Inbox.Entry} {past : List Deed} {q : Attempt Disposition}

/-- What a worker does with a job that it has just leased, when nobody else touches the stores and
the materializer does not crash. It comes to an end from wherever it has got to, it never fails and
never loses the lease, and how it disposed of the job tells what has become of everything else. -/
theorem process_tells (queue : e.queue.Reached) (inbox : Inbox.Run h e.inbox)
    (inMemory : e.InMemory) (held : e.queue.Holds j.id worker j)
    (alone : Alone (process cfg worker j) e past e' q) (calm : ∀ d ∈ past, d.isCrash = false) :
    (∃ more e'' d, Alone (process cfg worker j) e (past ++ more) e'' (.done (.ok d))) ∧
      ∀ r, q = .done r → ∃ d, r = .ok d ∧ d.Tells j (e.desk j.id []) (e'.desk j.id past) := by
  have yields : (process cfg worker j).Yields j.id (Told j (e.desk j.id [])) (e.desk j.id []) :=
    yields_process ⟨⟨j, held, rfl⟩, rfl⟩ inbox.orderly.sound rfl rfl
  obtain ⟨inMemory, hq, onward⟩ := alone.yields inMemory queue.keyed calm yields
  constructor
  · obtain ⟨more, e'', r, ended, d, rfl, -⟩ := alone.completes inMemory hq onward
    exact ⟨more, e'', d, ended⟩
  · rintro r rfl
    exact onward

/-- One job waits. -/
def oneWaits : Queue := (Queue.Call.enqueue (Queue.sampleJob 1 "post-1")).after .epoch .empty

/-- It is leased for half a minute. -/
def lentQueue : Queue := (oneWaits.lease "w-1" 1 (.ofMillis 30000) .epoch).2

def lentJob : Job := (oneWaits.lease "w-1" 1 (.ofMillis 30000) .epoch).1.get ⟨0, by decide +kernel⟩

/-- The adapter takes longer than that, in vain. -/
def slowAdapter : Surroundings :=
  { Surroundings.quiet with
    connections := [("x", .scripted
      [⟨some (.ofMillis 45000), none, false, .outcome (.environment "down")⟩])] }

def lentEngine : Engine := { Engine.create Config.usual .epoch slowAdapter with queue := lentQueue }

/-- The job is to be tried again, although the lease has run out in the meantime. -/
theorem process_tells_lentJob :
    (Schedule.run (process Config.usual "w-1" lentJob) ⟨lentEngine, []⟩).1.toOption =
        some .retried ∧
      ∃ past, Disposition.retried.Tells lentJob (lentEngine.desk lentJob.id [])
        ((Schedule.run (process Config.usual "w-1" lentJob) ⟨lentEngine, []⟩).2.engine.desk
          lentJob.id past) := by
  have waits : oneWaits.Reached := .call .epoch _ .empty
  have lent : lentEngine.queue.Reached := .call .epoch (.lease "w-1" 1 (.ofMillis 30000)) waits
  have held : lentEngine.queue.Holds lentJob.id "w-1" lentJob :=
    Queue.holds_of_mem_lease waits.keyed (List.get_mem _ _)
  have tame : lentEngine.surroundings.Tame :=
    ⟨by simp [lentEngine, Engine.create, slowAdapter], nofun⟩
  have start : Alone (process Config.usual "w-1" lentJob) lentEngine [] lentEngine
    (process Config.usual "w-1" lentJob) := .start (.refl _)
  obtain ⟨past, alone, calm⟩ := Schedule.run_alone start (serves_process _ _ _) tame rfl
  obtain ⟨-, told⟩ := process_tells lent .nil ⟨rfl, rfl⟩ held alone calm
  have again : (Schedule.run (process Config.usual "w-1" lentJob) ⟨lentEngine, []⟩).1.toOption =
    some .retried := by decide +kernel
  obtain ⟨d, hd, tells⟩ := told _ rfl
  rw [hd] at again
  cases again
  exact ⟨by rw [hd]; rfl, past, tells⟩

end Worker

end Courier
