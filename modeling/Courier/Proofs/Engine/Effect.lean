import Courier.Proofs.Engine.Kept
import Courier.Proofs.Inbox
import Courier.Proofs.Plan
import Courier.Proofs.Queue.Run

/-! What an answered action does to the queue, the inbox and the log of attempts: nothing unless
its answer says so. -/

namespace Courier

/-- The state of the attempt under `key`. -/
def Engine.attemptState? (e : Engine) (key : String) : Option AttemptState :=
  (Table.get? e.attempts key).map AttemptRecord.state

namespace Deed

/-- What a deed makes of the state of the attempt under `key`. -/
def mark (key : String) : Deed → Option AttemptState → Option AttemptState
  | ⟨.beginAttempt k, .ok .first⟩, s => if key = k then some .inProgress else s
  | ⟨.completeAttempt k _, .ok _⟩, s => if key = k then some .done else s
  | ⟨.clearAttempt k, .ok _⟩, s => if key = k ∧ s = some .inProgress then none else s
  | _, s => s

/-- The job that a deed ended. -/
def ended? : Deed → Option JobId
  | ⟨.completeJob id _, .ok _⟩ => some id
  | ⟨.deadLetterJob id _ _ _, .ok _⟩ => some id
  | _ => none

/-- The call of the queue that a deed carried out. -/
def made? : Deed → Option Queue.Call
  | ⟨.leaseJobs worker batch visibility, .ok _⟩ => some (.lease worker batch visibility)
  | ⟨.renewLease id worker visibility, .ok _⟩ => some (.heartbeat id worker visibility)
  | ⟨.completeJob id worker, .ok _⟩ => some (.complete id worker)
  | ⟨.releaseJob id worker availableAt reason refund, .ok _⟩ =>
    some (.release id worker availableAt reason refund)
  | ⟨.deadLetterJob id worker entry reason, .ok _⟩ => some (.moveToDlq id worker entry reason)
  | ⟨.reclaimJobs, .ok _⟩ => some .reclaim
  | ⟨.pruneJobs cutoff, .ok _⟩ => some (.prune cutoff)
  | _ => none

/-- The job whose envelope a deed put into the inbox. -/
def stored? : Deed → Option JobId
  | ⟨.appendEnvelope x, .ok true⟩ => some x.jobId
  | _ => none

/-- A deed ends the job that its call ends. -/
theorem ended?_eq (d : Deed) : d.ended? = d.made?.bind Queue.Call.ends? := by
  obtain ⟨a, r⟩ := d
  cases a with
  | leaseJobs | renewLease | completeJob | releaseJob | deadLetterJob | reclaimJobs | pruneJobs =>
    cases r <;> rfl
  | _ => rfl

/-- No deed brings a new job. -/
theorem newId?_of_made {d : Deed} {c : Queue.Call} (h : d.made? = some c) : c.newId? = none := by
  obtain ⟨a, r⟩ := d
  cases a with
  | leaseJobs | renewLease | completeJob | releaseJob | deadLetterJob | reclaimJobs | pruneJobs =>
    cases r with
    | error => cases h
    | ok =>
      cases h
      rfl
  | _ => cases h

end Deed

namespace AttemptLog

theorem begin_first {staleAfter : Span} {key : String} {now : Timestamp} {log : AttemptLog}
    (h : (begin staleAfter key now log).1 = .first) :
    log.get? key = none ∧
      (begin staleAfter key now log).2 = log.insert key ⟨key, .inProgress, now, .null⟩ := by
  unfold begin at h ⊢
  cases hr : log.get? key with
  | none => exact ⟨rfl, rfl⟩
  | some r =>
    simp only [hr] at h
    split at h <;> cases h

/-- Only the first attempt is written down. -/
theorem begin_again {staleAfter : Span} {key : String} {now : Timestamp} {log : AttemptLog}
    (h : (begin staleAfter key now log).1 ≠ .first) : (begin staleAfter key now log).2 = log := by
  unfold begin at h ⊢
  cases hr : log.get? key with
  | none => simp [hr] at h
  | some r =>
    simp only
    split <;> rfl

theorem get?_clear (key : String) (log : AttemptLog) (k : String) :
    ((clear key log).get? k).map AttemptRecord.state =
      if k = key ∧ (log.get? k).map AttemptRecord.state = some .inProgress then none
      else (log.get? k).map AttemptRecord.state := by
  unfold clear
  by_cases hk : k = key
  · subst hk
    cases hr : log.get? k with
    | none => simp [hr]
    | some r => by_cases hs : r.state = .inProgress <;> simp [hs, hr, Table.get?_erase]
  · cases hr : log.get? key with
    | none => simp [hk]
    | some r => by_cases hs : r.state = .inProgress <;> simp [hs, hk, Table.get?_erase]

end AttemptLog

namespace Engine

/-- A call on the log of attempts fails with the log as it was, or it is carried out. -/
theorem onAttempts_cases {γ : Type} {c : StoreCall} {x : Error} {e e' : Engine}
    {r : Except Failure γ} (f : Engine → γ × AttemptLog)
    (h : e.call c (.error x) (fun e => (.ok (f e).1, { e with attempts := (f e).2 })) = (r, e')) :
    (e'.attempts = e.attempts ∧ ∃ y, r = .error y) ∨
      ∃ e₁ : Engine, e₁.attempts = e.attempts ∧ r = .ok (f e₁).1 ∧ e'.attempts = (f e₁).2 := by
  cases r with
  | error y => exact Or.inl ⟨(call_error h fun _ _ _ hb => by cases hb).attempts nofun, y, rfl⟩
  | ok b =>
    obtain ⟨e₁, kept, -, hb⟩ := call_ok h
    obtain ⟨hr, he⟩ := Prod.mk.inj hb
    exact Or.inr ⟨e₁, (kept.attempts nofun), congrArg Except.ok (Except.ok.inj hr).symm,
      congrArg attempts he.symm⟩

theorem beginAttempt_mark {e e' : Engine} {k : String} {r : Except Failure Beginning}
    (h : e.beginAttempt k = (r, e')) (key : String) :
    e'.attemptState? key = Deed.mark key ⟨.beginAttempt k, r⟩ (e.attemptState? key) := by
  rcases onAttempts_cases
      (fun e => AttemptLog.begin e.config.attempts.staleAfter k e.now e.attempts) h with
    ⟨same, y, rfl⟩ | ⟨e₁, same, rfl, after⟩
  · rw [attemptState?, same]
    rfl
  · rw [attemptState?, attemptState?, after, ← same]
    cases answer : (AttemptLog.begin e₁.config.attempts.staleAfter k e₁.now e₁.attempts).1 with
    | first =>
      rw [(AttemptLog.begin_first answer).2, Table.get?_insert]
      split_ifs with hk <;> simp [Deed.mark, hk]
    | underWay | done =>
      rw [AttemptLog.begin_again fun first => by cases first.symm.trans answer]
      rfl

theorem completeAttempt_mark {e e' : Engine} {k : String} {m : Json} {r : Except Failure Unit}
    (h : e.completeAttempt k m = (r, e')) (key : String) :
    e'.attemptState? key = Deed.mark key ⟨.completeAttempt k m, r⟩ (e.attemptState? key) := by
  rcases onAttempts_cases (fun e => ((), AttemptLog.complete k m e.now e.attempts)) h with
    ⟨same, y, rfl⟩ | ⟨e₁, same, rfl, after⟩
  · rw [attemptState?, same]
    rfl
  · rw [attemptState?, attemptState?, after, ← same, AttemptLog.complete, Table.get?_insert]
    split_ifs with hk <;> simp [Deed.mark, hk]

theorem clearAttempt_mark {e e' : Engine} {k : String} {r : Except Failure Unit}
    (h : e.clearAttempt k = (r, e')) (key : String) :
    e'.attemptState? key = Deed.mark key ⟨.clearAttempt k, r⟩ (e.attemptState? key) := by
  rcases onAttempts_cases (fun e => ((), AttemptLog.clear k e.attempts)) h with
    ⟨same, y, rfl⟩ | ⟨e₁, same, rfl, after⟩
  · rw [attemptState?, same]
    rfl
  · rw [attemptState?, attemptState?, after, ← same]
    exact AttemptLog.get?_clear k e₁.attempts key

/-- The log of attempts changes as the answer says. -/
theorem perform_mark {e e' : Engine} {a : Action} {r : a.Reply} (own : a.isForeign = false)
    (h : e.perform a = .reply r e') (key : String) :
    e'.attemptState? key = Deed.mark key ⟨a, r⟩ (e.attemptState? key) := by
  have kept := (perform_keeps own h).attempts
  cases a with
  | beginAttempt k => exact beginAttempt_mark (reply_inj h) key
  | completeAttempt k metadata => exact completeAttempt_mark (reply_inj h) key
  | clearAttempt k => exact clearAttempt_mark (reply_inj h) key
  | _ =>
    rw [attemptState?, kept nofun]
    rfl

/-- Nobody goes first where an attempt is written down. -/
theorem perform_first {e e' : Engine} {key : String}
    (h : e.perform (.beginAttempt key) = .reply (.ok .first) e') :
    e.attemptState? key = none := by
  obtain ⟨e₁, kept, -, hb⟩ := call_ok (reply_inj h)
  have := AttemptLog.begin_first (Except.ok.inj (Prod.mk.inj hb).1)
  rw [attemptState?, ← kept.attempts nofun, this.1]
  rfl

/-- The queue is as it was, or one of its calls has succeeded, which ends no job but `ended?`. -/
def QueueMoves (e e' : Engine) (ended? : Option JobId) : Prop :=
  e'.queue = e.queue ∨
    ∃ (c : Queue.Call) (x : Queue.Answer), c.run e.now e.queue = .ok (x, e'.queue) ∧
      ∀ id, c.ends? = some id → ended? = some id

theorem onQueue_moves {γ : Type} {c : StoreCall} {offline : Error}
    {f : Queue → Timestamp → Except Error (γ × Queue)} {e e' : Engine} {r : Except Failure γ}
    (h : e.call c (.error offline) (fun e => e.onQueue fun q => f q e.now) = (r, e')) :
    (e'.queue = e.queue ∧ ∃ x, r = .error x) ∨
      ∃ b, r = .ok b ∧ f e.queue e.now = .ok (b, e'.queue) := by
  rcases call_cases h with ⟨kept, hoff⟩ | ⟨e₁, kept, hnow, rfl, rfl⟩
  · refine Or.inl ⟨kept.queue nofun, ?_⟩
    cases r with
    | error x => exact ⟨x, rfl⟩
    | ok b => cases hoff b rfl
  · rw [← kept.queue nofun, ← hnow]
    rcases onQueue_cases (fun q => f q e₁.now) e₁ with ⟨x, hx⟩ | ⟨b, q, hf, hx⟩
    · rw [hx]
      exact Or.inl ⟨rfl, _, rfl⟩
    · rw [hx]
      exact Or.inr ⟨b, rfl, hf⟩

theorem updateQueue_moves {c : StoreCall} {offline : Error}
    {f : Queue → Timestamp → Except Error Queue} {e e' : Engine} {r : Except Failure Unit}
    (h : e.call c (.error offline) (fun e => e.updateQueue fun q => f q e.now) = (r, e')) :
    (e'.queue = e.queue ∧ ∃ x, r = .error x) ∨ r = .ok () ∧ f e.queue e.now = .ok e'.queue := by
  rcases onQueue_moves (f := fun q now => (f q now).map fun q => ((), q)) h with
    same | ⟨b, rfl, hf⟩
  · exact Or.inl same
  · obtain ⟨q, hq, he⟩ := Queue.of_map_ok hf
    cases he
    exact Or.inr ⟨rfl, hq⟩

/-- The queue has gone through the call that a deed carried out, or it is as it was. -/
def Made (c? : Option Queue.Call) (e e' : Engine) : Prop :=
  match c? with
  | some c => ∃ x, c.run e.now e.queue = .ok (x, e'.queue)
  | none => e'.queue = e.queue

theorem updateQueue_made (call : Queue.Call) (f : Queue → Timestamp → Except Error Queue)
    (hf : ∀ q now q', f q now = .ok q' → ∃ x, call.run now q = .ok (x, q')) {c : StoreCall}
    {offline : Error} {e e' : Engine} {r : Except Failure Unit}
    (h : e.call c (.error offline) (fun e => e.updateQueue fun q => f q e.now) = (r, e')) :
    Made (match r with | .ok _ => some call | .error _ => none) e e' := by
  rcases updateQueue_moves h with ⟨same, x, rfl⟩ | ⟨rfl, made⟩
  · exact same
  · exact hf _ _ _ made

/-- Likewise for operations that do not fail, and that do nothing where they are answered while the
queue cannot be reached. -/
theorem totalQueue_made {γ : Type} (call : Queue.Call) (f : Queue → Timestamp → γ × Queue)
    (hf : ∀ q now, ∃ x, call.run now q = .ok (x, (f q now).2)) {c : StoreCall}
    {offline : Except Error γ} {e e' : Engine} {r : Except Failure γ}
    (h : e.call c offline
      (fun e => (.ok (f e.queue e.now).1, { e with queue := (f e.queue e.now).2 })) = (r, e'))
    (idle : ∀ b, offline = .ok b → ∀ q now, ∃ x, call.run now q = .ok (x, q)) :
    Made (match r with | .ok _ => some call | .error _ => none) e e' := by
  rcases call_cases h with ⟨same, hoff⟩ | ⟨e₁, same, hnow, rfl, rfl⟩
  · cases r with
    | error => exact same.queue nofun
    | ok b =>
      obtain ⟨x, ok⟩ := idle b (hoff b rfl) e.queue e.now
      exact ⟨x, by rw [ok, same.queue nofun]⟩
  · obtain ⟨x, ok⟩ := hf e.queue e.now
    refine ⟨x, ?_⟩
    rw [ok, ← hnow, ← same.queue nofun]

theorem perform_made {e e' : Engine} {a : Action} {r : a.Reply} (own : a.isForeign = false)
    (h : e.perform a = .reply r e') : Made (Deed.made? ⟨a, r⟩) e e' := by
  have kept := (perform_keeps own h).queue
  -- what an operation without a result of its own gives, as a call
  have plain : ∀ {x : Except Error Queue} {q' : Queue}, x = .ok q' →
      x.map (fun q => (Queue.Answer.nothing, q)) = .ok (.nothing, q') := by
    rintro x q' rfl
    rfl
  cases a with
  | leaseJobs worker batch visibility =>
    have := totalQueue_made (.lease worker batch visibility)
      (fun q now => q.lease worker batch visibility now) (fun q now => ⟨_, rfl⟩)
      (reply_inj h) fun jobs hoff q now => by
        -- an unreachable queue answers only when nothing is asked of it
        have hb : batch = 0 := by
          by_contra hb
          rw [if_neg hb] at hoff
          cases hoff
        exact ⟨.jobs [], by rw [hb]; rfl⟩
    cases r <;> exact this
  | renewLease id worker visibility =>
    rcases onQueue_moves (f := fun q now => q.heartbeat id worker visibility now) (reply_inj h) with
      ⟨same, x, rfl⟩ | ⟨b, rfl, hf⟩
    · exact same
    · exact ⟨.expiry b, by simp [Queue.Call.run, hf, Except.map]⟩
  | completeJob id worker =>
    have := updateQueue_made (.complete id worker) (fun q now => q.complete id worker now)
      (fun q now q' hq => ⟨.nothing, plain hq⟩) (reply_inj h)
    cases r <;> exact this
  | releaseJob id worker availableAt reason refund =>
    have := updateQueue_made (.release id worker availableAt reason refund)
      (fun q now => q.release id worker availableAt reason refund now)
      (fun q now q' hq => ⟨.nothing, plain hq⟩) (reply_inj h)
    cases r <;> exact this
  | deadLetterJob id worker entry reason =>
    have := updateQueue_made (.moveToDlq id worker entry reason)
      (fun q now => q.moveToDlq id worker entry reason now)
      (fun q now q' hq => ⟨.nothing, plain hq⟩) (reply_inj h)
    cases r <;> exact this
  | reclaimJobs =>
    have := totalQueue_made .reclaim (fun q now => q.reclaim now) (fun q now => ⟨_, rfl⟩)
      (reply_inj h) nofun
    cases r <;> exact this
  | pruneJobs cutoff =>
    have := totalQueue_made (.prune cutoff) (fun q _ => q.prune cutoff) (fun q now => ⟨_, rfl⟩)
      (reply_inj h) nofun
    cases r <;> exact this
  | _ => exact kept nofun

theorem QueueMoves.of_made {c? : Option Queue.Call} {e e' : Engine} (h : Made c? e e') :
    QueueMoves e e' (c?.bind Queue.Call.ends?) := by
  cases c? with
  | none => exact Or.inl h
  | some c =>
    obtain ⟨x, ok⟩ := h
    exact Or.inr ⟨c, x, ok, fun _ hid => hid⟩

theorem perform_queue {e e' : Engine} {a : Action} {r : a.Reply} (own : a.isForeign = false)
    (h : e.perform a = .reply r e') : QueueMoves e e' (Deed.ended? ⟨a, r⟩) := by
  rw [Deed.ended?_eq]
  exact .of_made (perform_made own h)

end Engine

namespace Engine

theorem appendEnvelope_ok {e e' : Engine} {x : Envelope} {isNew : Bool}
    (h : e.appendEnvelope x = (.ok isNew, e')) :
    e.inbox.append ⟨e.ids.next⟩ x = (isNew, e'.inbox) := by
  unfold appendEnvelope call at h
  split_ifs at h
  · cases h
  · generalize e.surroundings.takeFault .appendEnvelope = t at h
    obtain ⟨fault, s⟩ := t
    cases fault with
    | none =>
      obtain ⟨hr, he⟩ := Prod.mk.inj h
      exact Prod.ext (Except.ok.inj hr) (congrArg Engine.inbox he)
    | fail | lost | crash => cases h

theorem appendEnvelope_cases {e e' : Engine} {x : Envelope} {r : Except Failure Bool}
    (h : e.appendEnvelope x = (r, e')) :
    (e'.inbox = e.inbox ∧ (∃ f, r = .error f)) ∨
      (e'.inbox = e.inbox ∧ r = .ok false ∧ x.jobId ∈ e.inbox.seen) ∨
      (r = .ok true ∧ x.jobId ∉ e.inbox.seen ∧
        e'.inbox = (e.inbox.append ⟨e.ids.next⟩ x).2) := by
  cases r with
  | error f =>
    exact Or.inl ⟨(call_error h fun _ _ _ hb => by cases hb).inbox nofun, f, rfl⟩
  | ok isNew =>
    have ok := appendEnvelope_ok h
    by_cases hs : x.jobId ∈ e.inbox.seen
    · rw [Inbox.append_of_seen hs] at ok
      obtain ⟨rfl, he⟩ := Prod.mk.inj ok
      exact Or.inr (Or.inl ⟨he.symm, rfl, hs⟩)
    · have stored : isNew = true := by
        rw [Inbox.append_of_unseen hs] at ok
        exact (Prod.mk.inj ok).1.symm
      exact Or.inr (Or.inr ⟨by rw [stored], hs, (congrArg Prod.snd ok).symm⟩)

/-- The inbox changes as the answer says, or it is pruned. -/
theorem perform_inbox {e e' : Engine} {a : Action} {r : a.Reply} (own : a.isForeign = false)
    (h : e.perform a = .reply r e') :
    (∃ cutoff, a = .pruneEnvelopes cutoff ∧
      (e'.inbox = e.inbox ∨ e'.inbox = (e.inbox.prune cutoff).2)) ∨
    Inbox.Change ⟨e.ids.next⟩ e.inbox (Deed.stored? ⟨a, r⟩) e'.inbox := by
  have kept := (perform_keeps own h).inbox
  have same : ∀ {e₁ : Engine}, e₁.inbox = e.inbox →
      Inbox.Change ⟨e.ids.next⟩ e.inbox none e₁.inbox := by
    intro e₁ he
    rw [he]
    exact .same
  cases a with
  | appendEnvelope x =>
    right
    rcases appendEnvelope_cases (reply_inj h) with ⟨he, f, rfl⟩ | ⟨he, rfl, -⟩ | ⟨rfl, hs, he⟩
    · exact same he
    · exact same he
    · rw [he]
      exact .stored hs
  | leaseEnvelopes consumer batch visibility =>
    right
    rcases call_cases (reply_inj h) with ⟨he, -⟩ | ⟨e₁, he, -, -, he'⟩
    · exact same (he.inbox nofun)
    · rw [← he.inbox nofun, he']
      exact .leased consumer batch visibility e₁.now
  | ackEnvelope id consumer =>
    right
    rcases call_cases (reply_inj h) with ⟨he, -⟩ | ⟨e₁, he, -, -, he'⟩
    · exact same (he.inbox nofun)
    · rw [← he.inbox nofun, he']
      split
      · rename_i s' hs
        exact .acked hs
      · exact .same
  | reclaimEnvelopes =>
    right
    rcases call_cases (reply_inj h) with ⟨he, -⟩ | ⟨e₁, he, -, -, he'⟩
    · exact same (he.inbox nofun)
    · rw [← he.inbox nofun, he']
      exact .reclaimed e₁.now
  | pruneEnvelopes cutoff =>
    refine Or.inl ⟨cutoff, rfl, ?_⟩
    rcases call_cases (reply_inj h) with ⟨he, -⟩ | ⟨e₁, he, -, -, he'⟩
    · exact Or.inl (he.inbox nofun)
    · rw [← he.inbox nofun, he']
      exact Or.inr rfl
  | _ => exact Or.inr (same (kept nofun))

/-- A job has an envelope in the inbox only from then on when one was appended for it. -/
theorem perform_seen {e e' : Engine} {a : Action} {r : a.Reply} (own : a.isForeign = false)
    (h : e.perform a = .reply r e') {id : JobId} (hid : id ∈ e'.inbox.seen) :
    id ∈ e.inbox.seen ∨ Deed.stored? ⟨a, r⟩ = some id := by
  rcases perform_inbox own h with ⟨cutoff, -, he | he⟩ | change
  · exact Or.inl (he ▸ hid)
  · rw [he] at hid
    exact Or.inl (List.mem_filter.1 hid).1
  · exact (change.mem_seen_iff id).1 hid

/-- The inbox holds the envelopes that it held, and one that is being appended. -/
theorem perform_envelopes {e e' : Engine} {a : Action} {r : a.Reply} (own : a.isForeign = false)
    (h : e.perform a = .reply r e') {y : Envelope} (hy : y ∈ e'.inbox.envelopes) :
    y ∈ e.inbox.envelopes ∨ a = .appendEnvelope y := by
  by_cases append : ∃ x, a = .appendEnvelope x
  · obtain ⟨x, rfl⟩ := append
    rcases appendEnvelope_cases (reply_inj h) with ⟨he, -⟩ | ⟨he, -⟩ | ⟨-, -, he⟩
    · exact Or.inl (he ▸ hy)
    · exact Or.inl (he ▸ hy)
    · rw [he] at hy
      exact (Inbox.mem_envelopes_append hy).imp_right fun same => by rw [same]
  · have silent : Deed.stored? ⟨a, r⟩ = none := by
      cases a with
      | appendEnvelope x => exact absurd ⟨x, rfl⟩ append
      | _ => rfl
    rcases perform_inbox own h with ⟨cutoff, -, he | he⟩ | change
    · exact Or.inl (he ▸ hy)
    · exact Or.inl (Inbox.mem_envelopes_prune (he ▸ hy))
    · rw [silent] at change
      exact Or.inl (change.mem_envelopes hy)

/-- What callers ask of the queue changes no other store: either nothing happens, or the queue goes
through their call. -/
theorem enqueue_effect (j : Job) (e : Engine) : KeptBut (some .queue) e (e.enqueue j).2 ∧
    (Made none e (e.enqueue j).2 ∨ Made (some (.enqueue j)) e (e.enqueue j).2) := by
  have kept : KeptBut (some .queue) e (e.call .enqueue (checkNew j >>= fun _ => offline)
      fun e => e.onQueue (Queue.enqueue j e.now)).2 := call_keeps (fun e => onQueue_keeps _ e) e
  unfold enqueue
  generalize hc : e.call .enqueue (checkNew j >>= fun _ => offline)
    (fun e => e.onQueue (Queue.enqueue j e.now)) = x at kept
  obtain ⟨r, e'⟩ := x
  have moves : Made none e e' ∨ Made (some (.enqueue j)) e e' := by
    rcases call_cases hc with ⟨same, -⟩ | ⟨e₁, same, hnow, -, rfl⟩
    · exact Or.inl (same.queue nofun)
    · simp only [Made]
      rw [← same.queue nofun, ← hnow]
      rcases onQueue_cases (Queue.enqueue j e₁.now) e₁ with ⟨x, hx⟩ | ⟨h, q, hf, hx⟩
      · exact Or.inl (by rw [hx])
      · refine Or.inr ⟨.handle h, ?_⟩
        simp [Queue.Call.run, hf, hx, Except.map]
  cases r with
  | error => exact ⟨kept, moves⟩
  | ok => exact ⟨⟨kept.queue, kept.inbox, kept.attempts⟩, moves⟩

theorem replay_effect (id : JobId) (actor : String) (e : Engine) :
    KeptBut (some .queue) e (e.replay id actor).2 ∧ (Made none e (e.replay id actor).2 ∨
      Made (some (.replay id ⟨e.ids.next⟩)) e (e.replay id actor).2) := by
  unfold replay
  split_ifs
  · exact ⟨.refl _ _, Or.inl rfl⟩
  · dsimp only [drawId]
    have hnow : ({ e with ids := e.ids.advance } : Engine).now = e.now := rfl
    rw [hnow]
    rcases onQueue_cases (Queue.replay id ⟨e.ids.next⟩ e.now) { e with ids := e.ids.advance } with
      ⟨x, hx⟩ | ⟨h, q, hf, hx⟩
    · rw [hx]
      exact ⟨⟨fun _ => rfl, fun _ => rfl, fun _ => rfl⟩, Or.inl rfl⟩
    · rw [hx]
      refine ⟨⟨nofun, fun _ => rfl, fun _ => rfl⟩,
        Or.inr ⟨.handle h, ?_⟩⟩
      simp only [Queue.Call.run, hf, Except.map]
      rfl

theorem resolve_effect (id : JobId) (entry : DlqState) (actor : String) (e : Engine) :
    KeptBut (some .queue) e (e.resolve id entry actor).2 ∧
      (Made none e (e.resolve id entry actor).2 ∨
        Made (some (.resolve id entry)) e (e.resolve id entry actor).2) := by
  unfold resolve
  split_ifs
  · exact ⟨.refl _ _, Or.inl rfl⟩
  · rcases onQueue_cases (Queue.resolve id entry e.now) e with ⟨x, hx⟩ | ⟨j, q, hf, hx⟩
    · rw [hx]
      exact ⟨.refl _ _, Or.inl rfl⟩
    · rw [hx]
      refine ⟨⟨nofun, fun _ => rfl, fun _ => rfl⟩, Or.inr ⟨.job j, ?_⟩⟩
      simp only [Queue.Call.run, hf, Except.map]
      rfl

end Engine

end Courier
