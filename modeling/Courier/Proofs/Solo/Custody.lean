import Courier.Proofs.Queue.Fate
import Courier.Proofs.Queue.Selection
import Courier.Proofs.Solo.Attempts

/-! What an answer means for one job: nothing if the action spares it; a lease takes it once or
passes it by; and in memory nothing is refused to the worker that holds it. -/

namespace Courier

namespace Queue

/-- A call about another job's lease passes a job by. -/
theorem Change.passes {now : Timestamp} {q q' : Queue} {c : Call} {a : Answer}
    (h : Change now q c a q') (hq : q.Keyed) {i id : JobId} {worker : String}
    (claim : c.claim? = some (i, worker)) (other : i ≠ id) : q'.get? id = q.get? id := by
  have old : c.newId? = none := by
    cases c <;> first | rfl | cases claim
  cases hj : q.get? id with
  | none =>
    cases hk : q'.get? id with
    | none => rfl
    | some k =>
      rcases h.stored hq hk with ⟨j, hj'⟩ | ⟨hnew, -⟩
      · rw [hj] at hj'
        cases hj'
      · rw [old] at hnew
        cases hnew
  | some j =>
    have fate := h.fate hq hj (by rw [old]; nofun)
    generalize q'.get? id = o at fate
    cases fate with
    | untouched => rfl
    | renewed | completed | released | buried =>
      cases claim
      exact absurd rfl other
    | leased | requeued | pruned | replayed | resolved => cases claim

/-- Where ids are not repeated, one job has the id of a given one. -/
theorem filter_id_eq {js : List Job} (nodup : (js.map Job.id).Nodup) {j : Job} (hj : j ∈ js) :
    (js.filter fun k => k.id = j.id) = [j] := by
  induction js with
  | nil => cases hj
  | cons k js ih =>
    rw [List.map_cons, List.nodup_cons] at nodup
    rcases List.mem_cons.1 hj with rfl | hj
    · rw [List.filter_cons_of_pos (by simp), List.filter_eq_nil_iff.2 fun k hk => ?_]
      intro same
      exact nodup.1 (of_decide_eq_true same ▸ List.mem_map_of_mem hk)
    · rw [List.filter_cons_of_neg fun same => ?_, ih nodup.2 hj]
      exact nodup.1 (of_decide_eq_true same ▸ List.mem_map_of_mem hj)

/-- A lease takes a waiting job out once, or it passes the job by. -/
theorem lease_cases {q : Queue} (hq : q.Keyed) (worker : String) (batch : Nat) (visibility : Span)
    (now : Timestamp) (id : JobId) :
    (∃ k, q.get? id = some k ∧ k.state = .queued ∧
      (q.lease worker batch visibility now).2.get? id =
        some (leaseTo worker (now.add visibility) now k) ∧
      ((q.lease worker batch visibility now).1.filter fun j => j.id = id) =
        [leaseTo worker (now.add visibility) now k]) ∨
    ((q.lease worker batch visibility now).2.get? id = q.get? id ∧
      ∀ j ∈ (q.lease worker batch visibility now).1, j.id ≠ id) := by
  rcases get?_lease hq worker batch visibility now id with ⟨k, hk, eligible, mem, hget⟩ | ⟨ne, same⟩
  · have single := filter_id_eq (lease_nodup hq worker batch visibility now) mem
    have hid : (leaseTo worker (now.add visibility) now k).id = id := hq id k hk
    rw [hid] at single
    exact Or.inl ⟨k, hk, isEligible_queued eligible, hget, single⟩
  · exact Or.inr ⟨same, ne⟩

/-- Whoever leased a job holds it. -/
theorem holds_of_mem_lease {q : Queue} (hq : q.Keyed) {worker : String} {batch : Nat}
    {visibility : Span} {now : Timestamp} {j : Job}
    (hj : j ∈ (q.lease worker batch visibility now).1) :
    (q.lease worker batch visibility now).2.Holds j.id worker j := by
  have stored := hq.get?_lease_of_mem hj
  obtain ⟨k, -, -, rfl⟩ := mem_lease hq hj
  exact ⟨stored, rfl, rfl⟩

end Queue

namespace Engine

variable {e e' : Engine} {id : JobId} {worker : String} {k : Job}

theorem KeptBut.attemptState? {s : Option Store} (h : KeptBut s e e') (other : s ≠ some .attempts)
    (key : String) : e'.attemptState? key = e.attemptState? key := by
  rw [Engine.attemptState?, Engine.attemptState?, h.attempts other]

/-- A call about another job's lease passes a job by, whether it succeeds or not. -/
theorem Made.passes {c? : Option Queue.Call} (h : Made c? e e') (hq : e.queue.Keyed) {i : JobId}
    (claim : ∀ c, c? = some c → ∃ worker, c.claim? = some (i, worker)) (other : i ≠ id) :
    e'.queue.get? id = e.queue.get? id := by
  cases c? with
  | none => rw [show e'.queue = e.queue from h]
  | some c =>
    obtain ⟨x, ok⟩ := h
    obtain ⟨worker, claim⟩ := claim c rfl
    exact (Queue.Call.change ok).passes hq claim other

/-- Taking back what has run out and forgetting what is done leave alone what waits or is dead. -/
theorem Made.tidied {c? : Option Queue.Call} (h : Made c? e e')
    (tidying : ∀ c, c? = some c → c = .reclaim ∨ ∃ cutoff, c = .prune cutoff)
    (resting : ∀ k, e.queue.get? id = some k → k.state = .queued ∨ k.state = .dlq) :
    e'.queue.get? id = e.queue.get? id := by
  cases c? with
  | none => rw [show e'.queue = e.queue from h]
  | some c =>
    obtain ⟨x, ok⟩ := h
    generalize e'.queue = q at ok
    rcases tidying c rfl with rfl | ⟨cutoff, rfl⟩ <;> cases Queue.Call.change ok
    · rw [Queue.get?_reclaim]
      cases hk : e.queue.get? id with
      | none => rfl
      | some k => rcases resting k hk with hs | hs <;> simp [Queue.isExpired, hs]
    · rw [Queue.get?_prune]
      cases hk : e.queue.get? id with
      | none => rfl
      | some k => rcases resting k hk with hs | hs <;> simp [Queue.isPrunable, hs]

/-- The job under this id is in the dead-letter queue. -/
def Buried (e : Engine) (id : JobId) : Prop := ∃ k, e.queue.get? id = some k ∧ k.state = .dlq

theorem Made.buried {c? : Option Queue.Call} (h : Made c? e e') (hq : e.queue.Keyed)
    (old : ∀ c, c? = some c → c.newId? = none) (dead : e.Buried id) : e'.Buried id := by
  cases c? with
  | none => rwa [Buried, show e'.queue = e.queue from h]
  | some c =>
    obtain ⟨x, ok⟩ := h
    obtain ⟨k, hk, hs⟩ := dead
    exact ((Queue.Call.change ok).fate hq hk (by rw [old c rfl]; nofun)).dead hs

/-- A new job passes by all that are stored under other ids. -/
theorem enqueue_passes (j : Job) (e : Engine) (other : j.id ≠ id) :
    (e.enqueue j).2.queue.get? id = e.queue.get? id := by
  obtain ⟨-, same | ⟨x, ok⟩⟩ := enqueue_effect j e
  · rw [show (e.enqueue j).2.queue = e.queue from same]
  · generalize (e.enqueue j).2.queue = q at ok
    cases Queue.Call.change ok with
    | merged => rfl
    | takenIn =>
      rw [Queue.get?_takeIn, show (Queue.takenIn e.now j).id = j.id from rfl, if_neg other.symm]

/-- A job that is accepted is sound and waits. -/
theorem enqueue_accepted {j : Job} {handle : Handle} (ok : (e.enqueue j).1 = .ok handle)
    (accepted : handle.accepted = true) : j.check = .ok () ∧ j.state = .queued ∧
      ∃ now, (e.enqueue j).2.queue.get? j.id = some (Queue.takenIn now j) := by
  unfold enqueue at ok ⊢
  generalize hc : e.call .enqueue (checkNew j >>= fun _ => offline)
    (fun e => e.onQueue (Queue.enqueue j e.now)) = x at ok ⊢
  obtain ⟨r, e₁⟩ := x
  cases r with
  | error => cases ok
  | ok handle' =>
    cases ok
    show _ ∧ _ ∧ ∃ now, e₁.queue.get? j.id = _
    rcases call_cases hc with ⟨-, hoff⟩ | ⟨e₂, -, -, hr, rfl⟩
    · have := hoff handle rfl
      cases hj : checkNew j <;> rw [hj] at this <;> cases this
    · rcases onQueue_cases (Queue.enqueue j e₂.now) e₂ with ⟨x, hx⟩ | ⟨handle', q, made, hx⟩
      · rw [hx] at hr
        cases hr
      · rw [hx] at hr ⊢
        cases hr
        cases Queue.enqueue_ok made with
        | merged => cases accepted
        | takenIn sound waits =>
          exact ⟨sound, waits, _, by rw [Queue.get?_takeIn]; exact if_pos rfl⟩

namespace Answers

theorem quiet {a : Action} {r : a.Reply} (h : e.Answers a r e') (quiet : a.isQuiet = true) :
    e'.queue = e.queue ∧ e'.attempts = e.attempts := by
  have stores : a.store? ≠ some .queue ∧ a.store? ≠ some .attempts := by
    cases a with
    | emit n => exact ⟨nofun, nofun⟩
    | _ => first | exact of_decide_eq_true quiet | cases quiet
  exact ⟨h.kept.queue stores.1, h.kept.attempts stores.2⟩

/-- An action that spares a job leaves it, and every attempt at it, as they are. -/
theorem spared {a : Action} {r : a.Reply} (h : e.Answers a r e') (hq : e.queue.Keyed)
    (spares : a.Spares id) : e'.queue.get? id = e.queue.get? id ∧
      ∀ j : Job, j.id = id → e'.attemptState? j.attemptKey = e.attemptState? j.attemptKey := by
  have made := h.made
  have kept := h.kept
  have mark := h.mark
  by_cases quiet : a.isQuiet = true
  · obtain ⟨queue, attempts⟩ := h.quiet quiet
    refine ⟨by rw [queue], fun j _ => ?_⟩
    rw [attemptState?, attemptState?, attempts]
  · cases a with
    | renewLease | completeJob | releaseJob | deadLetterJob =>
      refine ⟨made.passes hq (fun c hc => ?_) spares,
        fun j _ => kept.attemptState? (by rintro ⟨⟩) _⟩
      cases r with
      | error => cases hc
      | ok =>
        cases hc
        exact ⟨_, rfl⟩
    | beginAttempt key =>
      refine ⟨by rw [kept.queue (by rintro ⟨⟩)], fun j hj => (mark _).trans ?_⟩
      rcases r with _ | (_ | _ | _) <;> first | rfl | exact if_neg (spares j hj).symm
    | completeAttempt key =>
      refine ⟨by rw [kept.queue (by rintro ⟨⟩)], fun j hj => (mark _).trans ?_⟩
      cases r <;> first | rfl | exact if_neg (spares j hj).symm
    | clearAttempt key =>
      refine ⟨by rw [kept.queue (by rintro ⟨⟩)], fun j hj => (mark _).trans ?_⟩
      cases r <;> first | rfl | exact if_neg fun same => (spares j hj).symm same.1
    | callAdapter =>
      exact ⟨by rw [kept.queue (by rintro ⟨⟩)], fun j _ => kept.attemptState? (by rintro ⟨⟩) _⟩
    | _ => exact absurd spares quiet

/-- A lease in memory succeeds. It takes a waiting job out once, or it passes the job by. -/
theorem leased {batch : Nat} {visibility : Span} {r : Except Failure (List Job)}
    (h : e.Answers (.leaseJobs worker batch visibility) r e') (inMemory : e.InMemory)
    (hq : e.queue.Keyed) (id : JobId) : ∃ jobs, r = .ok jobs ∧
      ((∃ k until_, e.queue.get? id = some k ∧ k.state = .queued ∧
        e'.queue.get? id = some (Queue.leaseTo worker until_ e.now k) ∧
        (jobs.filter fun j => j.id = id) = [Queue.leaseTo worker until_ e.now k]) ∨
      (e'.queue.get? id = e.queue.get? id ∧ ∀ j ∈ jobs, j.id ≠ id)) := by
  obtain ⟨rfl, rfl⟩ := inMemory.result (h.performed rfl)
  refine ⟨_, rfl, ?_⟩
  rcases Queue.lease_cases hq worker batch visibility e.now id with
    ⟨k, hk, waits, hget, single⟩ | ⟨same, ne⟩
  · exact Or.inl ⟨k, _, hk, waits, hget, single⟩
  · exact Or.inr ⟨same, ne⟩

/-- Whoever holds a job is not refused to renew the lease. -/
theorem renewed {visibility : Span} {r : Except Failure Timestamp}
    (h : e.Answers (.renewLease id worker visibility) r e') (inMemory : e.InMemory)
    (hq : e.queue.Keyed) (held : e.queue.Holds id worker k) : ∃ until_, r = .ok until_ ∧
      e'.queue.get? id = some (Queue.renewed until_ e.now k) := by
  obtain ⟨rfl, rfl⟩ := inMemory.result (h.performed rfl)
  rw [onQueue, Queue.heartbeat, held.held_eq]
  exact ⟨_, rfl, held.get?_put hq rfl⟩

/-- Nor to hand it back. -/
theorem released {availableAt : Timestamp} {reason : String} {refund : Bool}
    {r : Except Failure Unit} (h : e.Answers (.releaseJob id worker availableAt reason refund) r e')
    (inMemory : e.InMemory) (hq : e.queue.Keyed) (held : e.queue.Holds id worker k) :
    r = .ok () ∧
      e'.queue.get? id = some (Queue.released availableAt reason refund e.now k) := by
  obtain ⟨rfl, rfl⟩ := inMemory.result (h.performed rfl)
  rw [updateQueue, onQueue, Queue.release, held.held_eq]
  exact ⟨rfl, held.get?_put hq rfl⟩

/-- Nor to end it as completed. -/
theorem completed {r : Except Failure Unit} (h : e.Answers (.completeJob id worker) r e')
    (inMemory : e.InMemory) (hq : e.queue.Keyed) (held : e.queue.Holds id worker k) :
    r = .ok () ∧ e'.queue.get? id = some (Queue.completed e.now k) := by
  obtain ⟨rfl, rfl⟩ := inMemory.result (h.performed rfl)
  rw [updateQueue, onQueue, Queue.complete, held.held_eq]
  refine ⟨rfl, ?_⟩
  show (Queue.settle id k.intentId (e.queue.put (Queue.completed e.now k))).get? id = _
  rw [Queue.get?_settle]
  exact held.get?_put hq rfl

/-- Nor to bury it. -/
theorem buried {entry : DlqState} {reason : String} {r : Except Failure Unit}
    (h : e.Answers (.deadLetterJob id worker entry reason) r e') (inMemory : e.InMemory)
    (hq : e.queue.Keyed) (held : e.queue.Holds id worker k) :
    r = .ok () ∧ e'.queue.get? id = some (Queue.buried entry reason e.now k) := by
  obtain ⟨rfl, rfl⟩ := inMemory.result (h.performed rfl)
  rw [updateQueue, onQueue, Queue.moveToDlq, held.held_eq]
  refine ⟨rfl, ?_⟩
  show (Queue.settle id k.intentId (e.queue.put (Queue.buried entry reason e.now k))).get? id = _
  rw [Queue.get?_settle]
  exact held.get?_put hq rfl

/-- Where no attempt is written down, the first one goes ahead. -/
theorem begun {key : String} {r : Except Failure Beginning}
    (h : e.Answers (.beginAttempt key) r e') (inMemory : e.InMemory)
    (free : e.attemptState? key = none) : r = .ok .first := by
  have unlogged : Table.get? e.attempts key = none := Option.map_eq_none_iff.1 free
  obtain ⟨rfl, -⟩ := inMemory.result (h.performed rfl)
  rw [AttemptLog.begin, unlogged]
  rfl

theorem cleared {key : String} {r : Except Failure Unit} (h : e.Answers (.clearAttempt key) r e')
    (inMemory : e.InMemory) : r = .ok () :=
  (inMemory.result (h.performed rfl)).1

end Answers

end Engine

end Courier
