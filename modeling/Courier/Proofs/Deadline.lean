import Courier.Proofs.Breaker.History
import Courier.Proofs.Limiter.Settle
import Courier.Proofs.Number.Quantity
import Courier.Proofs.Plan
import Courier.Proofs.Time.Saturation
import Courier.Worker.Process

/-! Times that are worked out from the clock. Whatever the settings are, a lease never ends before
it begins, a job is never handed back to a time that is over, and a window never reaches into the
time to come. -/

namespace Courier

open Plan

/-- No setting of the delays between attempts, and no place in their band, leads back in time. -/
theorem RetryConfig.zero_le_delay (c : RetryConfig Float) (attempts : Nat) (unit : Float) :
    Span.zero ≤ c.delay attempts unit := by
  unfold RetryConfig.delay
  dsimp only
  obtain ⟨v, least⟩ := exists_weighs_floatOfInt (Int.natCast_nonneg c.minDelayMs)
  exact Span.ofMillis_nonneg least.notNegative_atLeast.wholeOfFloat_nonneg

section

variable {now t : Timestamp}

theorem Queue.le_leaseUntil {q : Queue} {worker : String} {batch : Nat} {visibility : Span}
    {j : Job} (forward : Span.zero ≤ visibility)
    (leased : j ∈ (q.lease worker batch visibility now).1) :
    ∃ u, j.leaseUntil = some u ∧ now ≤ u := by
  obtain ⟨_, -, rfl⟩ := List.mem_map.1 leased
  exact ⟨_, rfl, now.le_add forward⟩

theorem Queue.le_renewed {q q' : Queue} {id : JobId} {worker : String} {visibility : Span}
    (forward : Span.zero ≤ visibility)
    (renewed : q.heartbeat id worker visibility now = .ok (t, q')) : now ≤ t := by
  unfold Queue.heartbeat at renewed
  cases held : q.held id worker with
  | error x =>
    rw [held] at renewed
    cases renewed
  | ok j =>
    rw [held] at renewed
    cases renewed
    exact now.le_add forward

theorem Inbox.le_leaseUntil {s : Inbox} {consumer : String} {batch : Nat} {visibility : Span}
    {r : InboxRecord} (forward : Span.zero ≤ visibility)
    (leased : r ∈ (s.lease consumer batch visibility now).1) :
    ∃ u, r.leaseUntil = some u ∧ now ≤ u := by
  obtain ⟨_, -, rfl⟩ := List.mem_map.1 leased
  exact ⟨_, rfl, now.le_add forward⟩

/-- A window forgets nothing that is still to come. -/
theorem Window.le_of_trimmed {limit : WindowLimit} {w : Window} (forward : 0 ≤ limit.windowSecs)
    (mem : t ∈ w) (gone : t ∉ w.trim limit now) : t ≤ now := by
  obtain ⟨old, split, past⟩ := TrimmedTo.of_trim limit now w
  rw [split] at mem
  have before := past t ((List.mem_append.1 mem).resolve_right gone)
  exact Timestamp.le_trans before (now.sub_le (Span.zero_le_ofSeconds forward))

theorem Circuit.le_of_forgotten {cfg : CircuitConfig} {c : Circuit} (forward : 0 ≤ cfg.windowSecs)
    (mem : t ∈ c.failures) (gone : t ∉ (c.failure cfg now).circuit.failures) : t ≤ now := by
  cases hs : c.state with
  | shut =>
    have forgotten : t ∉ Window.trim ⟨0, cfg.windowSecs⟩ now (c.failures ++ [now]) := by
      rw [failure_of_shut hs] at gone
      split at gone <;> exact gone
    exact Window.le_of_trimmed forward (List.mem_append_left _ mem) forgotten
  | tripped | halfOpen =>
    simp only [failure, hs] at gone
    exact absurd mem gone

end

/-- With the last reading of the clock as its state: a job is handed back to that time or a later
one, and nothing younger than that is swept out. -/
def onTime : Rule (Option Timestamp) where
  allows s
    | .releaseJob _ _ t _ _ | .emit (.deferred _ _ t) | .emit (.retried _ _ t) =>
      ∃ now, s = some now ∧ now ≤ t
    | .pruneJobs t | .pruneEnvelopes t => ∃ now, s = some now ∧ t ≤ now
    | _ => True
  after s
    | ⟨.readClock, now⟩ => some now
    | _ => s
  ends _ := True

namespace Worker

variable {α : Type} {cfg : Config} {worker route : String} {job : Job} {held : Holdings}
  {s : Option Timestamp} {now : Timestamp}

theorem onTime_fail (e : Failure) : (fail e : Attempt α).Keeps onTime s := trivial

theorem onTime_defer (reason : Deferral) {d : Span} (forward : Span.zero ≤ d) :
    (defer worker job reason (now.add d)).Keeps onTime (some now) := by
  have later := now.le_add forward
  refine ⟨⟨now, rfl, later⟩, fun r => ?_⟩
  cases r with
  | error e => exact onTime_fail e
  | ok => exact ⟨⟨now, rfl, later⟩, fun _ => trivial⟩

theorem onTime_publish (o : Outcome) (d : Disposition) : (publish job o d).Keeps onTime s := by
  refine ⟨trivial, fun _ => ⟨trivial, fun r => ?_⟩⟩
  rcases r with e | (_ | _)
  · exact onTime_fail e
  · exact ⟨trivial, fun _ => trivial⟩
  · exact ⟨trivial, fun _ => ⟨trivial, fun _ => trivial⟩⟩

theorem onTime_deadLetter (reason : String) (o : Outcome) :
    (deadLetter worker job reason o).Keeps onTime s := by
  refine ⟨trivial, fun r => ?_⟩
  cases r with
  | error e => exact onTime_fail e
  | ok => exact ⟨trivial, fun _ => onTime_publish o _⟩

theorem onTime_returnPassage {p : Passage} {k : Plan α} (h : k.Keeps onTime s) :
    (returnPassage route p k).Keeps onTime s := by
  unfold returnPassage
  split
  · exact ⟨trivial, fun _ => h⟩
  · exact h

theorem onTime_returnAll {k : Plan α} (h : k.Keeps onTime s) : (returnAll held k).Keeps onTime s :=
  ⟨trivial, fun _ => onTime_returnPassage h⟩

theorem onTime_handBack {k : Plan α} (h : k.Keeps onTime s) : (handBack held k).Keeps onTime s :=
  onTime_returnPassage ⟨trivial, fun _ => h⟩

theorem onTime_acknowledge (o : Outcome) (d : Disposition) :
    (.step (.completeJob job.id worker) fun
      | .error e => fail e
      | .ok _ => publish job o d : Attempt Disposition).Keeps onTime s := by
  refine ⟨trivial, fun r => ?_⟩
  cases r with
  | error e => exact onTime_fail e
  | ok => exact onTime_publish o d

theorem onTime_onSuccess (o : Outcome) : (onSuccess worker job route o).Keeps onTime s := by
  refine ⟨trivial, fun _ => ⟨trivial, fun _ => ⟨trivial, fun r => ?_⟩⟩⟩
  cases r with
  | error e => exact onTime_fail e
  | ok =>
    refine ⟨trivial, fun r => ?_⟩
    rcases r with (_ | _) | _
    · exact onTime_publish o _
    · exact onTime_fail _
    · exact onTime_publish o _

/-- The clock is read once more before a job is handed back for another attempt. -/
theorem onTime_onEnvironmentFailure (o : Outcome) :
    (onEnvironmentFailure cfg worker job route o).Keeps onTime s := by
  refine ⟨trivial, fun _ => ⟨trivial, fun _ => ⟨trivial, fun r => ?_⟩⟩⟩
  cases r with
  | error e => exact onTime_fail e
  | ok =>
    dsimp only
    split
    · refine ⟨trivial, fun now => ⟨trivial, fun unit => ?_⟩⟩
      have later := now.le_add (cfg.retry.zero_le_delay job.attemptCount unit)
      refine ⟨⟨now, rfl, later⟩, fun r => ?_⟩
      cases r with
      | error e => exact onTime_fail e
      | ok => exact ⟨⟨now, rfl, later⟩, fun _ => trivial⟩
    · exact onTime_deadLetter _ o

theorem onTime_onFinalFailure (p : Passage) (o : Outcome) :
    (onFinalFailure worker job route p o).Keeps onTime s := by
  refine onTime_returnPassage ⟨trivial, fun r => ?_⟩
  cases r with
  | error e => exact onTime_fail e
  | ok => exact onTime_acknowledge o _

theorem onTime_settle (p : Passage) (o : Outcome) :
    (settle cfg worker job route p o).Keeps onTime s := by
  unfold settle
  split
  · exact onTime_onSuccess o
  · split
    · exact onTime_onEnvironmentFailure o
    · exact onTime_onFinalFailure p o

theorem onTime_carryOut : (carryOut cfg worker job held).Keeps onTime s := by
  refine ⟨trivial, fun content => ?_⟩
  dsimp only
  cases content.apply job.intent with
  | none => exact onTime_returnAll (onTime_fail _)
  | some intent =>
    refine ⟨trivial, fun r => ?_⟩
    rcases r with (_ | _) | _
    · refine onTime_handBack ⟨trivial, fun r => ?_⟩
      cases r with
      | error e => exact onTime_fail e
      | ok => trivial
    · exact onTime_returnAll (onTime_fail _)
    · refine ⟨trivial, fun sent => ⟨trivial, fun _ => ⟨trivial, fun reply => ?_⟩⟩⟩
      refine ⟨trivial, fun r => ?_⟩
      rcases r with (_ | _) | _
      · exact onTime_settle _ _
      · exact onTime_returnPassage (onTime_fail _)
      · exact onTime_settle _ _

/-- Between taking room and this gate the clock is not read again. -/
theorem onTime_beginAttempt (held : Holdings) :
    (beginAttempt cfg worker job held).Keeps onTime (some held.taken) := by
  refine ⟨trivial, fun r => ?_⟩
  rcases r with e | (_ | ⟨_ | _, since⟩ | record)
  · exact onTime_returnAll (onTime_fail e)
  · exact onTime_carryOut
  · exact onTime_handBack (onTime_defer _ (Span.ofMillis_nonneg (Int.natCast_nonneg _)))
  · exact onTime_handBack (onTime_deadLetter _ _)
  · exact onTime_handBack (onTime_acknowledge _ _)

/-- Processing a job hands it back to a time that is not over, if at all. -/
theorem onTime_process (cfg : Config) (worker : String) (job : Job) :
    (process cfg worker job).Keeps onTime none := by
  refine ⟨trivial, fun now => ⟨trivial, fun wait => ?_⟩⟩
  dsimp only
  split
  · rename_i waits
    exact onTime_defer _ (Int.le_of_lt waits)
  · refine ⟨trivial, fun passage => ?_⟩
    dsimp only
    split
    · exact onTime_defer _ (Span.ofMillis_nonneg (Int.natCast_nonneg _))
    · refine ⟨trivial, fun room => ?_⟩
      dsimp only
      split
      · refine onTime_returnPassage (onTime_defer _ ?_)
        exact Span.ofMillis_nonneg (Int.natCast_nonneg _)
      · exact onTime_beginAttempt ⟨job.routeKey, passage, now⟩

end Worker

namespace Housekeeper

variable {s : Option Timestamp}

theorem onTime_regardless {α β : Type} {p : Attempt α} {k : Attempt β}
    (h : p.Ensures onTime (fun s' _ => s' = s) s) (hk : k.Keeps onTime s) :
    (p.regardless k).Keeps onTime s :=
  h.regardless (fun _ _ _ => trivial) fun _ _ same => same ▸ hk

/-- The housekeeper forgets nothing that is younger than the time on the clock. -/
theorem onTime_tidy {cfg : LeaseConfig} (forward : 0 ≤ cfg.retentionSecs) :
    (tidy cfg).Keeps onTime none := by
  refine onTime_regardless ⟨trivial, fun _ => rfl⟩ ?_
  refine onTime_regardless ⟨trivial, fun _ => rfl⟩ ⟨trivial, fun now => ?_⟩
  have past := now.sub_le (Span.zero_le_ofSeconds forward)
  refine onTime_regardless ⟨⟨now, rfl, past⟩, fun _ => rfl⟩ ?_
  exact onTime_regardless ⟨⟨now, rfl, past⟩, fun _ => rfl⟩ trivial

end Housekeeper

/-- Whatever the settings are, and whatever time it is: with a visibility timeout, a window and a
retention that do not run backward, a lease ends no sooner than it begins, a window forgets nothing
that is still to come, and what the housekeeper forgets is over. And without a condition on any
setting, a job that is deferred or retried is handed back to a time that is not over. -/
structure OnTime : Prop where
  lease {q : Queue} {worker : String} {batch : Nat} {visibility : Span} {now : Timestamp}
      {j : Job} :
    Span.zero ≤ visibility → j ∈ (q.lease worker batch visibility now).1 →
      ∃ u, j.leaseUntil = some u ∧ now ≤ u
  renewed {q q' : Queue} {id : JobId} {worker : String} {visibility : Span} {now u : Timestamp} :
    Span.zero ≤ visibility → q.heartbeat id worker visibility now = .ok (u, q') → now ≤ u
  envelope {s : Inbox} {consumer : String} {batch : Nat} {visibility : Span} {now : Timestamp}
      {r : InboxRecord} :
    Span.zero ≤ visibility → r ∈ (s.lease consumer batch visibility now).1 →
      ∃ u, r.leaseUntil = some u ∧ now ≤ u
  window {limit : WindowLimit} {now t : Timestamp} {w : Window} :
    0 ≤ limit.windowSecs → t ∈ w → t ∉ w.trim limit now → t ≤ now
  failures {cfg : CircuitConfig} {now t : Timestamp} {c : Circuit} :
    0 ≤ cfg.windowSecs → t ∈ c.failures → t ∉ (c.failure cfg now).circuit.failures → t ≤ now
  process (cfg : Config) (worker : String) (job : Job) :
    (Worker.process cfg worker job).Keeps onTime none
  tidy {cfg : LeaseConfig} : 0 ≤ cfg.retentionSecs → (Housekeeper.tidy cfg).Keeps onTime none

/-- Time saturates, so nothing that is worked out from the clock gets to the wrong side of it. -/
theorem saturates_and_onTime : Saturates ∧ OnTime where
  left := saturates
  right :=
    { lease := Queue.le_leaseUntil
      renewed := Queue.le_renewed
      envelope := Inbox.le_leaseUntil
      window := Window.le_of_trimmed
      failures := Circuit.le_of_forgotten
      process := Worker.onTime_process
      tidy := Housekeeper.onTime_tidy }

/-- Within time and at both ends of it, for a lease that is to last as long as anything can, and for
a window that has moved on. -/
theorem saturates_and_onTime_extremes :
    let later := Timestamp.epoch.add (.ofMillis 1500)
    let q := Queue.empty.put (.create ⟨.ofNat 1⟩ ⟨"i-1", "x", "a", "post", .null, none⟩ .last)
    later.nanos = 1500000000 ∧
      (Timestamp.last.add .longest = .last ∧ Timestamp.first.add .shortest = .first ∧
        Timestamp.first.sub .longest = .first) ∧
      (∃ j ∈ (q.lease "w-1" 1 (.ofSeconds 9223372036854775807) .last).1,
        ∃ u, j.leaseUntil = some u ∧ Timestamp.last ≤ u) ∧
      .epoch ∉ Window.trim ⟨1, 1⟩ later [.epoch, later] ∧ Timestamp.epoch ≤ later := by
  intro later q
  obtain ⟨time, deadlines⟩ := saturates_and_onTime
  have gone : .epoch ∉ Window.trim ⟨1, 1⟩ later [.epoch, later] := by decide
  refine ⟨time.add_exact (by decide) (by decide), ⟨?_, ?_, ?_⟩, ?_, gone, ?_⟩
  · exact time.add_end (by decide)
  · exact time.add_end (by decide)
  · rw [time.sub_eq]
    exact time.add_end (by decide)
  · have one : 0 < (q.lease "w-1" 1 (.ofSeconds 9223372036854775807) .last).1.length := by
      decide +kernel
    exact ⟨_, List.getElem_mem one, deadlines.lease (by decide) (List.getElem_mem one)⟩
  · exact deadlines.window (by decide) List.mem_cons_self gone

end Courier
