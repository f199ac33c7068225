import Courier.Proofs.Table
import Courier.Queue.DeadLetter

/-! The calls of a queue and, case by case, everything that a successful one changes. `Change` says
it once; what a call keeps is proved by cases on it, and no later proof unfolds an operation. -/

namespace Courier.Queue

/-- The calls that may change a queue. -/
inductive Call where
  | enqueue (j : Job)
  | lease (worker : String) (batch : Nat) (visibility : Span)
  | heartbeat (id : JobId) (worker : String) (visibility : Span)
  | complete (id : JobId) (worker : String)
  | release (id : JobId) (worker : String) (availableAt : Timestamp) (reason : String)
      (refund : Bool)
  | moveToDlq (id : JobId) (worker : String) (entry : DlqState) (reason : String)
  | reclaim
  | prune (cutoff : Timestamp)
  | replay (id child : JobId)
  | resolve (id : JobId) (entry : DlqState)

/-- What a successful call tells its caller. -/
inductive Answer where
  | handle (h : Handle)
  | jobs (js : List Job)
  | expiry (t : Timestamp)
  | count (n : Nat)
  | job (j : Job)
  | nothing

namespace Call

/-- A call made at `now`. -/
def run (now : Timestamp) (q : Queue) : Call → Except Error (Answer × Queue)
  | enqueue j => (q.enqueue j now).map fun r => (.handle r.1, r.2)
  | lease worker batch visibility =>
    let r := q.lease worker batch visibility now
    .ok (.jobs r.1, r.2)
  | heartbeat id worker visibility =>
    (q.heartbeat id worker visibility now).map fun r => (.expiry r.1, r.2)
  | complete id worker => (q.complete id worker now).map fun q => (.nothing, q)
  | release id worker availableAt reason refund =>
    (q.release id worker availableAt reason refund now).map fun q => (.nothing, q)
  | moveToDlq id worker entry reason =>
    (q.moveToDlq id worker entry reason now).map fun q => (.nothing, q)
  | reclaim => let r := q.reclaim now; .ok (.count r.1, r.2)
  | prune cutoff => let r := q.prune cutoff; .ok (.count r.1, r.2)
  | replay id child => (q.replay id child now).map fun r => (.handle r.1, r.2)
  | resolve id entry => (q.resolve id entry now).map fun r => (.job r.1, r.2)

def answer (now : Timestamp) (q : Queue) (c : Call) : Except Error Answer :=
  (c.run now q).map Prod.fst

/-- The queue after a call; one that fails leaves it as it was. -/
def after (now : Timestamp) (q : Queue) (c : Call) : Queue :=
  match c.run now q with
  | .ok (_, q') => q'
  | .error _ => q

/-- The job that a call ends. -/
def ends? : Call → Option JobId
  | complete id _ => some id
  | moveToDlq id _ _ _ => some id
  | _ => none

end Call

/-- A new job and its place in the index. -/
def takeIn (j : Job) (q : Queue) : Queue :=
  { q.put j with active := q.active.insert j.intentId j.id }

/-- What a job looks like once it is taken in. -/
def takenIn (now : Timestamp) (j : Job) : Job :=
  { j with leasedBy := none, leaseUntil := none, updatedAt := now }

def renewed (until_ now : Timestamp) (j : Job) : Job :=
  { j with leaseUntil := some until_, updatedAt := now }

def completed (now : Timestamp) (j : Job) : Job :=
  { j with state := .completed, leasedBy := none, leaseUntil := none, updatedAt := now }

def released (availableAt : Timestamp) (reason : String) (refund : Bool) (now : Timestamp)
    (j : Job) : Job :=
  { j with
    state := .queued
    leasedBy := none
    leaseUntil := none
    availableAt := availableAt
    lastError := some reason
    attemptCount := if refund then j.attemptCount - 1 else j.attemptCount
    updatedAt := now }

def buried (entry : DlqState) (reason : String) (now : Timestamp) (j : Job) : Job :=
  { j with
    state := .dlq
    dlqState := some entry
    leasedBy := none
    leaseUntil := none
    lastError := some reason
    updatedAt := now }

/-- A job that `worker` holds. -/
def Holds (q : Queue) (id : JobId) (worker : String) (j : Job) : Prop :=
  q.get? id = some j ∧ j.state = .leased ∧ j.leasedBy = some worker

/-- What a successful call at `now` does, by call and answer. -/
inductive Change (now : Timestamp) (q : Queue) : Call → Answer → Queue → Prop where
  | merged {j : Job} {id : JobId} : j.check = .ok () → j.state = .queued →
      q.active.get? j.intentId = some id →
      Change now q (.enqueue j) (.handle (.ofMerged id j.intentId)) q
  | takenIn {j : Job} : j.check = .ok () → j.state = .queued →
      q.active.get? j.intentId = none →
      Change now q (.enqueue j) (.handle (.ofAccepted j)) (q.takeIn (takenIn now j))
  | leased {worker : String} {batch : Nat} {visibility : Span} :
      Change now q (.lease worker batch visibility) (.jobs (q.lease worker batch visibility now).1)
        (q.lease worker batch visibility now).2
  | renewed {id : JobId} {worker : String} {visibility : Span} {j : Job} : q.Holds id worker j →
      Change now q (.heartbeat id worker visibility) (.expiry (now.add visibility))
        (q.put (renewed (now.add visibility) now j))
  | completed {id : JobId} {worker : String} {j : Job} : q.Holds id worker j →
      Change now q (.complete id worker) .nothing ((q.put (completed now j)).settle id j.intentId)
  | released {id : JobId} {worker : String} {availableAt : Timestamp} {reason : String}
      {refund : Bool} {j : Job} : q.Holds id worker j →
      Change now q (.release id worker availableAt reason refund) .nothing
        (q.put (released availableAt reason refund now j))
  | buried {id : JobId} {worker : String} {entry : DlqState} {reason : String} {j : Job} :
      q.Holds id worker j →
      Change now q (.moveToDlq id worker entry reason) .nothing
        ((q.put (buried entry reason now j)).settle id j.intentId)
  | reclaimed : Change now q .reclaim (.count (q.reclaim now).1) (q.reclaim now).2
  | pruned {cutoff : Timestamp} :
      Change now q (.prune cutoff) (.count (q.prune cutoff).1) (q.prune cutoff).2
  | replayedBefore {id child active : JobId} {j : Job} : q.get? id = some j → j.state = .dlq →
      j.dlqState = some .replayed → q.activeChild j = some active →
      Change now q (.replay id child) (.handle (.ofMerged active j.intentId)) q
  | replayMerged {id child active : JobId} {j : Job} : q.get? id = some j → j.state = .dlq →
      j.dlqState = some .awaitingManualAction → q.active.get? j.intentId = some active →
      Change now q (.replay id child) (.handle (.ofMerged active j.intentId))
        (q.put (close .replayed now j))
  | replayed {id child : JobId} {j : Job} : q.get? id = some j → j.state = .dlq →
      j.dlqState = some .awaitingManualAction → q.active.get? j.intentId = none →
      Change now q (.replay id child) (.handle (.ofAccepted (j.replayChild child now)))
        ((q.put (close .replayed now j)).takeIn (j.replayChild child now))
  | resolved {id : JobId} {entry : DlqState} {j : Job} : q.get? id = some j → j.state = .dlq →
      entry = .terminal ∨ entry = .resolved → (∀ s, j.dlqState = some s → s.isClosed = false) →
      Change now q (.resolve id entry) (.job (close entry now j)) (q.put (close entry now j))

theorem of_bind_ok {ε α β : Type} {x : Except ε α} {f : α → Except ε β} {b : β}
    (h : x >>= f = .ok b) : ∃ a, x = .ok a ∧ f a = .ok b := by
  cases x with
  | error e => cases h
  | ok a => exact ⟨a, rfl, h⟩

theorem of_map_ok {ε α β : Type} {x : Except ε α} {f : α → β} {b : β}
    (h : x.map f = .ok b) : ∃ a, x = .ok a ∧ f a = b := by
  cases x with
  | error e => cases h
  | ok a => exact ⟨a, rfl, Except.ok.inj h⟩

theorem held_ok {q : Queue} {id : JobId} {worker : String} {j : Job}
    (h : q.held id worker = .ok j) : q.Holds id worker j := by
  unfold held at h
  split at h
  · cases h
  · rename_i k hk
    split at h
    · rename_i hl
      cases h
      simp only [Job.isLeasedBy, Bool.and_eq_true, decide_eq_true_eq] at hl
      exact ⟨hk, hl⟩
    · cases h

theorem Holds.held_eq {q : Queue} {id : JobId} {worker : String} {k : Job}
    (h : q.Holds id worker k) : q.held id worker = .ok k := by
  obtain ⟨hget, hs, hw⟩ := h
  simp [held, hget, Job.isLeasedBy, hs, hw]

theorem deadLettered_ok {q : Queue} {id : JobId} {j : Job} (h : q.deadLettered id = .ok j) :
    q.get? id = some j ∧ j.state = .dlq := by
  unfold deadLettered at h
  split at h
  · cases h
  · rename_i k hk
    split at h
    · rename_i hs
      cases h
      exact ⟨hk, hs⟩
    · cases h

theorem enqueue_ok {q : Queue} {j : Job} {now : Timestamp} {h : Handle} {q' : Queue}
    (ok : q.enqueue j now = .ok (h, q')) : Change now q (.enqueue j) (.handle h) q' := by
  unfold enqueue at ok
  obtain ⟨_, hc, ok⟩ := of_bind_ok ok
  dsimp only at ok
  have hs : j.state = .queued := by
    by_contra hne
    rw [if_pos hne] at ok
    cases ok
  rw [if_neg (not_not_intro hs)] at ok
  split at ok
  · rename_i id hid
    cases ok
    exact .merged hc hs hid
  · rename_i hnone
    cases ok
    exact .takenIn hc hs hnone

theorem replay_ok {q : Queue} {id child : JobId} {now : Timestamp} {h : Handle} {q' : Queue}
    (ok : q.replay id child now = .ok (h, q')) :
    Change now q (.replay id child) (.handle h) q' := by
  unfold replay at ok
  obtain ⟨j, hj, ok⟩ := of_bind_ok ok
  obtain ⟨hget, hdlq⟩ := deadLettered_ok hj
  split at ok
  · rename_i active hactive
    cases ok
    split_ifs at hactive with hr
    exact .replayedBefore hget hdlq hr hactive
  · obtain ⟨_, hc, ok⟩ := of_bind_ok ok
    have hc : j.dlqState = some .awaitingManualAction := by
      unfold checkReplayable at hc
      split at hc
      · assumption
      · cases hc
    dsimp only at ok
    split at ok
    · rename_i active hactive
      cases ok
      exact .replayMerged hget hdlq hc hactive
    · rename_i hnone
      cases ok
      exact .replayed hget hdlq hc hnone

theorem resolve_ok {q : Queue} {id : JobId} {entry : DlqState} {now : Timestamp} {j : Job}
    {q' : Queue} (ok : q.resolve id entry now = .ok (j, q')) :
    Change now q (.resolve id entry) (.job j) q' := by
  unfold resolve at ok
  obtain ⟨_, he, ok⟩ := of_bind_ok ok
  obtain ⟨k, hk, ok⟩ := of_bind_ok ok
  obtain ⟨hget, hdlq⟩ := deadLettered_ok hk
  dsimp only at ok
  have he : entry = .terminal ∨ entry = .resolved := by
    cases entry <;> simp_all [checkResolution]
  have ho : ∀ s, k.dlqState = some s → s.isClosed = false := by
    intro s hs
    by_contra hclosed
    rw [Bool.not_eq_false] at hclosed
    simp only [hs, hclosed, if_true] at ok
    cases ok
  have ok : Except.ok (ε := Error) (close entry now k, q.put (close entry now k)) =
      .ok (j, q') := by
    rw [← ok]
    cases hs : k.dlqState with
    | none => rfl
    | some s => simp only [ho s hs]; rfl
  cases ok
  exact .resolved hget hdlq he ho

/-- Every successful call is one of the changes. -/
theorem Call.change {now : Timestamp} {q : Queue} {c : Call} {a : Answer} {q' : Queue}
    (ok : c.run now q = .ok (a, q')) : Change now q c a q' := by
  cases c with
  | enqueue j =>
    obtain ⟨⟨h, q''⟩, made, he⟩ := of_map_ok ok
    cases he
    exact enqueue_ok made
  | lease worker batch visibility => cases ok; exact .leased
  | heartbeat id worker visibility =>
    obtain ⟨⟨t, q''⟩, made, he⟩ := of_map_ok ok
    obtain ⟨j, hj, put⟩ := of_bind_ok made
    cases he
    cases put
    exact .renewed (held_ok hj)
  | complete id worker =>
    obtain ⟨q'', made, he⟩ := of_map_ok ok
    obtain ⟨j, hj, put⟩ := of_bind_ok made
    cases he
    cases put
    exact .completed (j := j) (held_ok hj)
  | release id worker availableAt reason refund =>
    obtain ⟨q'', made, he⟩ := of_map_ok ok
    obtain ⟨j, hj, put⟩ := of_bind_ok made
    cases he
    cases put
    exact .released (held_ok hj)
  | moveToDlq id worker entry reason =>
    obtain ⟨q'', made, he⟩ := of_map_ok ok
    obtain ⟨j, hj, put⟩ := of_bind_ok made
    cases he
    cases put
    exact .buried (j := j) (held_ok hj)
  | reclaim => cases ok; exact .reclaimed
  | prune cutoff => cases ok; exact .pruned
  | replay id child =>
    obtain ⟨⟨h, q''⟩, made, he⟩ := of_map_ok ok
    cases he
    exact replay_ok made
  | resolve id entry =>
    obtain ⟨⟨j, q''⟩, made, he⟩ := of_map_ok ok
    cases he
    exact resolve_ok made

/-- A call either fails and leaves no trace, or makes one of the changes. -/
theorem Call.after_cases (now : Timestamp) (q : Queue) (c : Call) :
    (∃ e, c.answer now q = .error e ∧ c.after now q = q) ∨
      ∃ a, c.answer now q = .ok a ∧ Change now q c a (c.after now q) := by
  unfold answer after
  cases h : c.run now q with
  | error e => exact Or.inl ⟨e, rfl, rfl⟩
  | ok r => exact Or.inr ⟨r.1, rfl, Call.change h⟩

end Courier.Queue
