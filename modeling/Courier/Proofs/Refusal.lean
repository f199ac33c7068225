import Courier.Proofs.Inbox.Fate
import Courier.Proofs.Queue.Tenure
import Courier.Proofs.Solo.Basic

/-! What the stores refuse, whatever they hold. A refusal leaves no trace in the queue or in the
inbox. A claim on a job or on an envelope is refused exactly when it is unknown or not in the hands
of the caller; a decision about a dead letter, when the job is unknown or the decision not open; and
an enqueue, when the job is not valid. -/

namespace Courier

theorem of_bind_error {ε α β : Type} {x : Except ε α} {f : α → Except ε β} {e : ε}
    (h : x >>= f = .error e) : x = .error e ∨ ∃ a, x = .ok a ∧ f a = .error e := by
  cases x with
  | error e' =>
    cases h
    exact Or.inl rfl
  | ok a => exact Or.inr ⟨a, rfl, h⟩

theorem map_eq_error_iff {ε α β : Type} {x : Except ε α} {f : α → β} {e : ε} :
    x.map f = .error e ↔ x = .error e := by
  cases x <;> simp [Except.map]

theorem mapError_eq_error_iff {ε ε' α : Type} {r : Except ε α} {f : ε → ε'} {x : ε'} :
    r.mapError f = .error x ↔ ∃ y, r = .error y ∧ x = f y := by
  cases r <;> simp [Except.mapError, eq_comm]

namespace Queue

variable {q : Queue} {id : JobId} {worker : String} {now : Timestamp} {x : Error}

/-- Why a job is withheld from a worker that lays claim to it: there is none, or it is not in the
hands of that worker. -/
inductive Withheld (q : Queue) (id : JobId) (worker : String) : Error → Prop where
  | unknown : q.get? id = none → Withheld q id worker (.unknownJob id)
  | notHeld {j : Job} : q.get? id = some j → ¬ (j.state = .leased ∧ j.leasedBy = some worker) →
      Withheld q id worker (.notLeasedBy id j.state j.leasedBy worker)

theorem held_error_iff : q.held id worker = .error x ↔ q.Withheld id worker x := by
  constructor
  · intro refused
    unfold held at refused
    split at refused
    · rename_i none
      cases refused
      exact .unknown none
    · rename_i j stored
      split at refused
      · cases refused
      · rename_i notHeld
        cases refused
        simp only [Job.isLeasedBy, Bool.and_eq_true, decide_eq_true_eq] at notHeld
        exact .notHeld stored notHeld
  · rintro (none | ⟨stored, notHeld⟩)
    · simp [held, none]
    · exact held_refused stored (by simpa [Job.isLeasedBy] using notHeld)

theorem Call.run_claim_error_iff {c : Call} (claim : c.claim? = some (id, worker)) :
    c.run now q = .error x ↔ q.Withheld id worker x := by
  obtain ⟨f, same⟩ := c.run_claim now q claim
  rw [same, map_eq_error_iff, held_error_iff]

/-- Why nothing is decided about a dead letter: there is none, or the decision is not open. -/
inductive Barred (q : Queue) (id : JobId) : Error → Prop where
  | unknown : q.get? id = none → Barred q id (.unknownJob id)
  | closed {x : Error} : x.kind = .invalidTransition → Barred q id x

theorem deadLettered_error (refused : q.deadLettered id = .error x) : q.Barred id x := by
  unfold deadLettered at refused
  split at refused
  · rename_i none
    cases refused
    exact .unknown none
  · split at refused
    · cases refused
    · cases refused
      exact .closed rfl

theorem replay_error {child : JobId} (refused : q.replay id child now = .error x) :
    q.Barred id x := by
  unfold replay at refused
  rcases of_bind_error refused with dead | ⟨j, -, refused⟩
  · exact deadLettered_error dead
  · split at refused
    · cases refused
    · rcases of_bind_error refused with entry | ⟨_, -, refused⟩
      · unfold checkReplayable at entry
        split at entry
        · cases entry
        · cases entry
          exact .closed rfl
      · dsimp only at refused
        split at refused <;> cases refused

theorem checkResolution_error {entry : DlqState} (refused : checkResolution entry = .error x) :
    x.kind = .invalidTransition := by
  cases entry <;> cases refused <;> rfl

theorem resolve_error {entry : DlqState} (refused : q.resolve id entry now = .error x) :
    q.Barred id x := by
  unfold resolve at refused
  rcases of_bind_error refused with entry | ⟨_, -, refused⟩
  · exact .closed (checkResolution_error entry)
  · rcases of_bind_error refused with dead | ⟨j, -, refused⟩
    · exact deadLettered_error dead
    · dsimp only at refused
      split at refused
      · split_ifs at refused
        · cases refused
          exact .closed rfl
        · cases refused
      · cases refused

theorem check_error {j : Job} (refused : j.check = .error x) : x.kind = .validation := by
  unfold Job.check at refused
  split_ifs at refused <;> cases refused <;> rfl

theorem enqueue_error {j : Job} (refused : q.enqueue j now = .error x) : x.kind = .validation := by
  unfold enqueue at refused
  rcases of_bind_error refused with invalid | ⟨_, -, refused⟩
  · exact check_error invalid
  · dsimp only at refused
    by_cases waits : j.state = .queued
    · rw [if_neg (not_not_intro waits)] at refused
      split at refused <;> cases refused
    · rw [if_pos waits] at refused
      cases refused
      rfl

end Queue

namespace Inbox

variable {s : Inbox} {id : EnvelopeId} {consumer : String} {x : Error}

/-- Why an envelope is withheld from a consumer that acknowledges it. -/
inductive Withheld (s : Inbox) (id : EnvelopeId) (consumer : String) : Error → Prop where
  | unknown : s.records.get? id = none → Withheld s id consumer (.unknownEnvelope id)
  | notHeld {r : InboxRecord} : s.records.get? id = some r →
      ¬ (r.state = .leased ∧ r.leasedBy = some consumer) →
      Withheld s id consumer (.envelopeNotLeasedBy id consumer)

theorem ack_error_iff : s.ack id consumer = .error x ↔ s.Withheld id consumer x := by
  constructor
  · intro refused
    unfold ack at refused
    split at refused
    · rename_i none
      cases refused
      exact .unknown none
    · rename_i r stored
      split at refused
      · cases refused
      · rename_i notHeld
        cases refused
        exact .notHeld stored notHeld
  · rintro (none | ⟨stored, notHeld⟩)
    · simp [ack, none]
    · simp [ack, stored, notHeld]

end Inbox

/-- What a caller may ask of the queue and of the inbox that can be refused. -/
inductive Request where
  | enqueue (j : Job)
  | renew (id : JobId) (worker : String) (visibility : Span)
  | complete (id : JobId) (worker : String)
  | release (id : JobId) (worker : String) (availableAt : Timestamp) (reason : String)
      (refund : Bool)
  | bury (id : JobId) (worker : String) (entry : DlqState) (reason : String)
  | replay (id : JobId) (actor : String)
  | resolve (id : JobId) (entry : DlqState) (actor : String)
  | ack (id : EnvelopeId) (consumer : String)

namespace Request

/-- A result without what was answered. -/
def outcome {α : Type} (r : Except Failure α × Engine) : Except Failure Unit × Engine :=
  (r.1.map fun _ => (), r.2)

def serve (e : Engine) : Request → Except Failure Unit × Engine
  | enqueue j => outcome (e.enqueue j)
  | renew id worker visibility => outcome (e.renewLease id worker visibility)
  | complete id worker => e.completeJob id worker
  | release id worker availableAt reason refund =>
    e.releaseJob id worker availableAt reason refund
  | bury id worker entry reason => e.deadLetterJob id worker entry reason
  | replay id actor =>
    let r := e.replay id actor
    outcome (r.1.mapError .error, r.2)
  | resolve id entry actor =>
    let r := e.resolve id entry actor
    outcome (r.1.mapError .error, r.2)
  | ack id consumer => e.ackEnvelope id consumer

/-- Why a request may be refused. -/
def Refusal (q : Queue) (s : Inbox) (x : Error) : Request → Prop
  | enqueue _ => x.kind = .validation
  | renew id worker _ | complete id worker | release id worker _ _ _ | bury id worker _ _ =>
    q.Withheld id worker x
  | replay id _ | resolve id _ _ => q.Barred id x
  | ack id consumer => s.Withheld id consumer x

/-- Requests of one who has a lease. -/
def isClaim : Request → Bool
  | renew _ _ _ | complete _ _ | release _ _ _ _ _ | bury _ _ _ _ | ack _ _ => true
  | _ => false

variable {e e' : Engine} {x : Failure}

theorem outcome_error_iff {α : Type} {r : Except Failure α × Engine} :
    (outcome r).1 = .error x ↔ r.1 = .error x := map_eq_error_iff

theorem onQueue_error {γ : Type} {f : Queue → Except Error (γ × Queue)} {y : Error}
    (refused : e.onQueue f = (.error y, e')) : f e.queue = .error y ∧ e' = e := by
  unfold Engine.onQueue at refused
  split at refused
  · cases refused
  · rename_i z failed
    cases refused
    exact ⟨failed, rfl⟩

/-- An enqueue that fails fails in the store call. -/
theorem call_of_enqueue_error {j : Job} (refused : (e.enqueue j).1 = .error x) :
    e.call .enqueue (Engine.checkNew j >>= fun _ => Engine.offline)
      (fun e => e.onQueue (Queue.enqueue j e.now)) = (.error x, (e.enqueue j).2) := by
  unfold Engine.enqueue at refused ⊢
  generalize e.call .enqueue (Engine.checkNew j >>= fun _ => Engine.offline)
    (fun e => e.onQueue (Queue.enqueue j e.now)) = p at refused ⊢
  obtain ⟨r, e'⟩ := p
  cases r with
  | ok => cases refused
  | error y =>
    cases refused
    rfl

theorem replay_failed {id : JobId} {actor : String} {y : Error}
    (refused : (e.replay id actor).1 = .error y) : Engine.KeptBut none e (e.replay id actor).2 ∧
      (e.unreachable.contains .queue = false → e.queue.Barred id y) := by
  unfold Engine.replay at refused ⊢
  split_ifs at refused ⊢ with down
  · exact ⟨.refl _ _, fun up => by rw [up] at down; cases down⟩
  · dsimp only [Engine.drawId] at refused ⊢
    split at refused
    · cases refused
    · rename_i failed
      cases refused
      obtain ⟨barred, rfl⟩ := onQueue_error failed
      exact ⟨⟨fun _ => rfl, fun _ => rfl, fun _ => rfl⟩, fun _ => Queue.replay_error barred⟩

theorem resolve_failed {id : JobId} {entry : DlqState} {actor : String} {y : Error}
    (refused : (e.resolve id entry actor).1 = .error y) :
    Engine.KeptBut none e (e.resolve id entry actor).2 ∧
      (e.unreachable.contains .queue = false → e.queue.Barred id y) := by
  unfold Engine.resolve at refused ⊢
  split_ifs at refused ⊢ with down
  · exact ⟨.refl _ _, fun up => by rw [up] at down; cases down⟩
  · split at refused
    · cases refused
    · rename_i failed
      cases refused
      obtain ⟨barred, rfl⟩ := onQueue_error failed
      exact ⟨.refl _ _, fun _ => Queue.resolve_error barred⟩

theorem queue_kept {γ : Type} {c : StoreCall} {offline : Except Error γ}
    {f : Engine → Queue → Except Error (γ × Queue)}
    (refused : (e.call c offline fun e => e.onQueue (f e)).1 = .error x) :
    Engine.KeptBut none e (e.call c offline fun e => e.onQueue (f e)).2 := by
  refine Engine.call_error (Prod.ext refused rfl) fun e₁ y e' refused => ?_
  rw [(onQueue_error refused).2]
  exact .refl _ _

/-- Whatever goes wrong, nothing has happened. -/
theorem kept_of_error (r : Request) (refused : (r.serve e).1 = .error x) :
    Engine.KeptBut none e (r.serve e).2 := by
  cases r with
  | enqueue j =>
    have failed := call_of_enqueue_error (outcome_error_iff.1 refused)
    have kept := queue_kept (congrArg Prod.fst failed)
    rwa [failed] at kept
  | renew id worker visibility => exact queue_kept (outcome_error_iff.1 refused)
  | complete id worker => exact queue_kept refused
  | release id worker availableAt reason refund => exact queue_kept refused
  | bury id worker entry reason => exact queue_kept refused
  | replay id actor =>
    obtain ⟨y, failed, -⟩ := mapError_eq_error_iff.1 (outcome_error_iff.1 refused)
    exact (replay_failed failed).1
  | resolve id entry actor =>
    obtain ⟨y, failed, -⟩ := mapError_eq_error_iff.1 (outcome_error_iff.1 refused)
    exact (resolve_failed failed).1
  | ack id consumer =>
    refine Engine.call_error (Prod.ext refused rfl) fun e₁ y e' refused => ?_
    split at refused
    · cases refused
    · cases refused
      exact .refl _ _

section InMemory

variable (mem : e.InMemory)
include mem

/-- In memory only the store itself refuses. -/
theorem queue_error_iff {γ : Type} {c : StoreCall} {offline : Except Error γ}
    {f : Engine → Queue → Except Error (γ × Queue)} :
    (e.call c offline fun e => e.onQueue (f e)).1 = .error x ↔
      ∃ y, f e e.queue = .error y ∧ x = .error y := by
  rw [mem.call]
  dsimp only
  rw [mapError_eq_error_iff]
  unfold Engine.onQueue
  cases f e e.queue with
  | ok r => simp
  | error y => simp

theorem withheld_iff {γ : Type} {id : JobId} {worker : String} {d : Queue.Call} {c : StoreCall}
    {offline : Except Error γ} {f : Engine → Queue → Except Error (γ × Queue)}
    (claim : d.claim? = some (id, worker))
    (same : ∀ y, f e e.queue = .error y ↔ d.run e.now e.queue = .error y) :
    (e.call c offline fun e => e.onQueue (f e)).1 = .error x ↔
      ∃ y, e.queue.Withheld id worker y ∧ x = .error y := by
  rw [queue_error_iff mem]
  refine exists_congr fun y => and_congr_left fun _ => ?_
  rw [same, Queue.Call.run_claim_error_iff claim]

/-- In memory a claim is refused exactly when there is nothing that the caller holds. -/
theorem claim_error_iff {r : Request} (claim : r.isClaim = true) :
    (r.serve e).1 = .error x ↔ ∃ y, r.Refusal e.queue e.inbox y ∧ x = .error y := by
  cases r with
  | renew id worker visibility =>
    refine outcome_error_iff.trans (withheld_iff mem
      (d := .heartbeat id worker visibility) rfl fun y => ?_)
    rw [Queue.Call.run, map_eq_error_iff]
  | complete id worker =>
    refine withheld_iff mem (d := .complete id worker) rfl fun y => ?_
    rw [Queue.Call.run, map_eq_error_iff, map_eq_error_iff]
  | release id worker availableAt reason refund =>
    refine withheld_iff mem (d := .release id worker availableAt reason refund) rfl fun y => ?_
    rw [Queue.Call.run, map_eq_error_iff, map_eq_error_iff]
  | bury id worker entry reason =>
    refine withheld_iff mem (d := .moveToDlq id worker entry reason) rfl fun y => ?_
    rw [Queue.Call.run, map_eq_error_iff, map_eq_error_iff]
  | ack id consumer =>
    have through : (Request.serve e (ack id consumer)).1 = .error x ↔
        ∃ y, e.inbox.ack id consumer = .error y ∧ x = .error y := by
      show (e.ackEnvelope id consumer).1 = .error x ↔ _
      unfold Engine.ackEnvelope
      rw [mem.call]
      dsimp only
      rw [mapError_eq_error_iff]
      cases e.inbox.ack id consumer <;> simp
    rw [through]
    exact exists_congr fun y => and_congr_left fun _ => Inbox.ack_error_iff
  | _ => cases claim

theorem refusal_of_error {r : Request} (refused : (r.serve e).1 = .error x) :
    ∃ y, r.Refusal e.queue e.inbox y ∧ x = .error y := by
  by_cases claim : r.isClaim = true
  · exact (claim_error_iff mem claim).1 refused
  · have up : e.unreachable.contains .queue = false := by rw [mem.1]; rfl
    cases r with
    | enqueue j =>
      have failed := call_of_enqueue_error (outcome_error_iff.1 refused)
      obtain ⟨y, invalid, rfl⟩ := (queue_error_iff mem).1 (congrArg Prod.fst failed)
      exact ⟨y, Queue.enqueue_error invalid, rfl⟩
    | replay id actor =>
      obtain ⟨y, failed, rfl⟩ := mapError_eq_error_iff.1 (outcome_error_iff.1 refused)
      exact ⟨y, (replay_failed failed).2 up, rfl⟩
    | resolve id entry actor =>
      obtain ⟨y, failed, rfl⟩ := mapError_eq_error_iff.1 (outcome_error_iff.1 refused)
      exact ⟨y, (resolve_failed failed).2 up, rfl⟩
    | _ => exact absurd rfl claim

end InMemory

/-- A request that is refused leaves the queue and the inbox exactly as they were, whatever they
hold and whatever went wrong. Where no store call is made to fail, claims are refused exactly for
want of what they claim, and all other requests only for reasons of their own kind.

For the queue itself the first part is a matter of types: each of its operations makes all its
checks before it changes anything, so its result is an error or a queue, and never both. What is
left to show is that a request hands on the queue it found, and takes nothing from the inbox. -/
theorem refused_without_trace (r : Request) (e : Engine) :
    (∀ x, (r.serve e).1 = .error x →
      (r.serve e).2.queue = e.queue ∧ (r.serve e).2.inbox = e.inbox) ∧
    (e.InMemory →
      (∀ x, (r.serve e).1 = .error x → ∃ y, r.Refusal e.queue e.inbox y ∧ x = .error y) ∧
      (r.isClaim = true → ∀ y, r.Refusal e.queue e.inbox y → (r.serve e).1 = .error (.error y))) := by
  refine ⟨fun x refused => ?_, fun mem => ⟨fun x => refusal_of_error mem, fun claim y due => ?_⟩⟩
  · have kept := r.kept_of_error refused
    exact ⟨kept.queue nofun, kept.inbox nofun⟩
  · exact (claim_error_iff mem claim).2 ⟨y, due, rfl⟩

/-- An engine whose only job is in the hands of one worker. -/
def oneHeld : Engine :=
  { Engine.create Config.usual .epoch .quiet with
    queue := Queue.empty.afterAll
      [(.epoch, .enqueue (Queue.sampleJob 1 "post-1")), (.epoch, .lease "w-1" 1 (.ofSeconds 60))] }

theorem refused_without_trace_oneHeld : oneHeld.InMemory ∧
    ((complete ⟨.ofNat 1⟩ "w-2").serve oneHeld).1 =
      .error (.error (.notLeasedBy ⟨.ofNat 1⟩ .leased (some "w-1") "w-2")) ∧
    ((complete ⟨.ofNat 1⟩ "w-2").serve oneHeld).2.queue = oneHeld.queue := by
  have mem : oneHeld.InMemory := by decide +kernel
  have held : (oneHeld.queue.get? ⟨.ofNat 1⟩).map (fun j => (j.state, j.leasedBy)) =
      some (.leased, some "w-1") := by decide +kernel
  obtain ⟨j, stored, same⟩ := Option.map_eq_some_iff.1 held
  obtain ⟨state, holder⟩ := Prod.mk.inj same
  have withheld : oneHeld.queue.Withheld ⟨.ofNat 1⟩ "w-2"
      (.notLeasedBy ⟨.ofNat 1⟩ .leased (some "w-1") "w-2") := by
    rw [← state, ← holder]
    refine .notHeld stored fun own => ?_
    exact absurd (holder.symm.trans own.2) (by decide)
  obtain ⟨trace, claims⟩ := refused_without_trace (complete ⟨.ofNat 1⟩ "w-2") oneHeld
  have refused := (claims mem).2 rfl _ withheld
  exact ⟨mem, refused, (trace _ refused).1⟩

end Request

end Courier
