import Courier.Proofs.Key
import Courier.Proofs.Solo.Basic
import Courier.Proofs.Worker
import Courier.Worker.Cycle

/-! What one cycle of a worker may do for one job: lease it once, take it through the gates once,
call the adapter at most once, and by the outcome hand it back or bury it. -/

namespace Courier

open Plan

/-- No lease, no job and no attempt is touched, and no job gets its turn. -/
def Action.isQuiet : Action → Bool
  | .callAdapter _ | .emit (.leased _ _ _) => false
  | a => a.store? ≠ some .queue ∧ a.store? ≠ some .attempts

/-- Nothing is done to the job `id` or to an attempt at it. -/
def Action.Spares (id : JobId) : Action → Prop
  | .renewLease i _ _ | .completeJob i _ | .releaseJob i _ _ _ _ | .deadLetterJob i _ _ _ => i ≠ id
  | .beginAttempt key | .completeAttempt key _ | .clearAttempt key =>
    ∀ j : Job, j.id = id → key ≠ j.attemptKey
  | .callAdapter _ => True
  | a => a.isQuiet = true

/-- Nothing is done but to `job` and to the attempt at it. -/
def Action.Minds (job : Job) : Action → Prop
  | .renewLease i _ _ | .completeJob i _ | .releaseJob i _ _ _ _ | .deadLetterJob i _ _ _ =>
    i = job.id
  | .beginAttempt key | .completeAttempt key _ | .clearAttempt key => key = job.attemptKey
  | .callAdapter _ => True
  | a => a.isQuiet = true

theorem Action.Minds.spares {a : Action} {job : Job} (h : a.Minds job) {id : JobId}
    (other : job.id ≠ id) : a.Spares id := by
  cases a with
  | renewLease | completeJob | releaseJob | deadLetterJob => exact h.symm ▸ other
  | beginAttempt | completeAttempt | clearAttempt =>
    intro j hj same
    exact other ((Job.attemptKey_inj (h.symm.trans same)).2.trans hj)
  | callAdapter => trivial
  | _ => exact h

/-- How far one job has got in a cycle. -/
inductive Stint where
  /-- It is in nobody's hands, and no other job's turn has come since. -/
  | loose
  /-- It is in nobody's hands, and the turn is another job's. -/
  | away
  /-- It is leased, as `k`, and waits for its turn. -/
  | waiting (k : Job)
  /-- Its turn has come. -/
  | held (k : Job)
  /-- The attempt at it has begun. -/
  | begun (k : Job)
  /-- The adapter was called for it and met a failure of the environment. -/
  | called (k : Job)
  /-- The attempt is given up. -/
  | cleared (k : Job)
  /-- A store refused what it must not refuse, or the adapter did not meet such a failure. -/
  | lost

namespace Stint

/-- How the job `id` comes out of a lease. -/
def ofBatch (id : JobId) (jobs : List Job) : Stint :=
  match jobs.filter fun j => j.id = id with
  | [] => away
  | [k] => waiting k
  | _ => lost

/-- Done, or given up as lost. -/
def orLost {α : Type} (s : Stint) : Except Failure α → Stint
  | .ok _ => s
  | .error _ => lost

/-- What may be done at a stint beside what is quiet. -/
def Permits (worker : String) (id : JobId) : Stint → Action → Prop
  | loose, .leaseJobs w _ _ => w = worker
  | loose, .emit (.leased i _ _) => i ≠ id
  | away, .emit (.leased i _ _) => i ≠ id
  | away, a => a.Spares id
  | waiting _, .emit (.leased _ _ _) => True
  | waiting _, a => a.Spares id
  | held _, .releaseJob i w _ _ refund => i = id ∧ w = worker ∧ refund = true
  | held k, .beginAttempt key => key = k.attemptKey
  | begun _, .renewLease i w _ => i = id ∧ w = worker
  | begun _, .callAdapter _ => True
  | called _, .renewLease i w _ => i = id ∧ w = worker
  | called k, .clearAttempt key => key = k.attemptKey
  | cleared k, .releaseJob i w _ _ refund =>
    (i = id ∧ w = worker ∧ refund = false) ∧ k.attemptCount < k.maxAttempts
  | cleared k, .deadLetterJob i w entry _ =>
    (i = id ∧ w = worker ∧ entry = .awaitingManualAction) ∧ k.maxAttempts ≤ k.attemptCount
  | lost, _ => True
  | _, _ => False

def after (id : JobId) : Stint → Deed → Stint
  | loose, ⟨.leaseJobs _ _ _, .ok jobs⟩ => ofBatch id jobs
  | loose, ⟨.emit (.leased _ _ _), _⟩ => away
  | waiting k, ⟨.emit (.leased i _ _), _⟩ => if i = id then held k else waiting k
  | held _, ⟨.releaseJob _ _ _ _ _, r⟩ => loose.orLost r
  | held k, ⟨.beginAttempt _, r⟩ =>
    match r with
    | .ok .first => begun k
    | _ => lost
  | begun k, ⟨.renewLease _ _ _, r⟩ => (begun k).orLost r
  | begun k, ⟨.callAdapter i, r⟩ =>
    if (r.toOutcome i.platform).isEnvironmentFailure then called k else lost
  | called k, ⟨.renewLease _ _ _, r⟩ => (called k).orLost r
  | called k, ⟨.clearAttempt _, r⟩ => (cleared k).orLost r
  | cleared _, ⟨.releaseJob _ _ _ _ _, r⟩ => loose.orLost r
  | cleared _, ⟨.deadLetterJob _ _ _ _, r⟩ => loose.orLost r
  | s, _ => s

end Stint

/-- What `worker` may do in a cycle, as far as the job `id` is concerned. -/
def stint (worker : String) (id : JobId) : Rule Stint where
  allows s a := a.isQuiet = true ∨ s.Permits worker id a
  after := Stint.after id
  ends s := s = .loose ∨ s = .away ∨ s = .lost

/-- A cycle that does not crash leaves the job in nobody's hands. -/
def Stint.Ends {α : Type} (s : Stint) (r : Except Failure α) : Prop :=
  r = .error .crash ∨ (s = .loose ∨ s = .away ∨ s = .lost)

variable {worker : String} {id : JobId} {s : Stint}

theorem stint_quiet {a : Action} (h : a.isQuiet = true) : (stint worker id).allows s a ∧
    ∀ r, (stint worker id).after s ⟨a, r⟩ = s := by
  refine ⟨Or.inl h, fun r => ?_⟩
  cases a with
  | leaseJobs | renewLease | completeJob | releaseJob | deadLetterJob | reclaimJobs | pruneJobs
  | beginAttempt | completeAttempt | clearAttempt | callAdapter => cases h
  | emit n =>
    cases n with
    | leased => cases h
    | _ => cases s <;> rfl
  | _ => cases s <;> rfl

theorem stint_lost {α : Type} (p : Attempt α) : p.Ensures (stint worker id) Stint.Ends .lost := by
  refine .of_free (fun _ => Or.inr trivial) (fun _ => rfl) (fun r => ?_) p
  exact Or.inr (Or.inr (Or.inr rfl))

theorem Stint.ends_loose {α : Type} (r : Except Failure α) : Stint.Ends .loose r :=
  Or.inr (Or.inl rfl)

theorem Stint.ends_crash {α : Type} (s : Stint) : s.Ends (.error .crash : Except Failure α) :=
  Or.inl rfl

/-- A quiet action on the way makes no difference. -/
theorem stint_step {α : Type} {post : Stint → α → Prop} {a : Action} {next : a.Reply → Plan α}
    (quiet : a.isQuiet = true) (onward : ∀ r, (next r).Ensures (stint worker id) post s) :
    (Plan.step a next).Ensures (stint worker id) post s :=
  ⟨(stint_quiet quiet).1, fun r => ((stint_quiet quiet).2 r).symm ▸ onward r⟩

theorem stint_returnPassage {α : Type} {post : Stint → α → Prop} {route : String} {p : Passage}
    {k : Plan α} (h : k.Ensures (stint worker id) post s) :
    (Worker.returnPassage route p k).Ensures (stint worker id) post s := by
  unfold Worker.returnPassage
  split_ifs
  · exact stint_step rfl fun _ => h
  · exact h

theorem stint_returnAll {α : Type} {post : Stint → α → Prop} {held : Worker.Holdings}
    {k : Plan α} (h : k.Ensures (stint worker id) post s) :
    (Worker.returnAll held k).Ensures (stint worker id) post s :=
  stint_step rfl fun _ => stint_returnPassage h

namespace Worker

variable {cfg : Config} {job : Job} {route : String}

/-- Once the job is settled, what is left to do concerns the inbox only. -/
theorem stint_publish (o : Outcome) (d : Disposition) :
    (publish job o d).Ensures (stint worker id) Stint.Ends .loose := by
  refine stint_step rfl fun now => stint_step rfl fun r => ?_
  cases r with
  | error e => exact Stint.ends_loose _
  | ok isNew =>
    cases isNew with
    | false => exact stint_step rfl fun _ => Stint.ends_loose _
    | true => exact stint_step rfl fun _ => stint_step rfl fun _ => Stint.ends_loose _

/-- A gate hands the job back with its attempt refunded. -/
theorem stint_defer (reason : Deferral) (t : Timestamp) :
    (defer worker job reason t).Ensures (stint worker job.id) Stint.Ends (.held job) := by
  refine ⟨Or.inr ⟨rfl, rfl, rfl⟩, fun r => ?_⟩
  cases r with
  | error e => exact stint_lost _
  | ok => exact stint_step rfl fun _ => Stint.ends_loose _

theorem stint_onEnvironmentFailure (o : Outcome) :
    (onEnvironmentFailure cfg worker job route o).Ensures (stint worker job.id) Stint.Ends
      (.called job) := by
  refine stint_step rfl fun _ => stint_step rfl fun _ => ⟨Or.inr rfl, fun r => ?_⟩
  cases r with
  | error e => exact stint_lost _
  | ok =>
    dsimp only
    split_ifs with another
    · have another : job.attemptCount < job.maxAttempts := by
        simpa [RetryConfig.allowsAnother] using another
      refine stint_step rfl fun _ => stint_step rfl fun _ =>
        ⟨Or.inr ⟨⟨rfl, rfl, rfl⟩, another⟩, fun r => ?_⟩
      cases r with
      | error e => exact stint_lost _
      | ok => exact stint_step rfl fun _ => Stint.ends_loose _
    · have spent : job.maxAttempts ≤ job.attemptCount := by
        simpa [RetryConfig.allowsAnother] using another
      refine ⟨Or.inr ⟨⟨rfl, rfl, rfl⟩, spent⟩, fun r => ?_⟩
      cases r with
      | error e => exact stint_lost _
      | ok => exact stint_step rfl fun _ => stint_publish o _

/-- What follows a call that met a failure of the environment. -/
theorem stint_called (cfg : Config) (worker : String) (job : Job) (held : Holdings) {o : Outcome}
    (strained : o.isEnvironmentFailure = true) :
    (.step (.renewLease job.id worker cfg.lease.visibilityTimeout) fun
      | .error .crash => returnPassage held.route held.passage (fail .crash)
      | _ => settle cfg worker job held.route held.passage o :
        Attempt Disposition).Ensures (stint worker job.id) Stint.Ends (.called job) := by
  have failed : o.isSuccess = false := by
    simp only [Outcome.isEnvironmentFailure, Bool.and_eq_true, Bool.not_eq_true'] at strained
    exact strained.1
  refine ⟨Or.inr ⟨rfl, rfl⟩, fun r => ?_⟩
  cases r with
  | error e => exact stint_lost _
  | ok t =>
    dsimp only
    rw [settle, failed, strained]
    exact stint_onEnvironmentFailure o

theorem stint_call (cfg : Config) (worker : String) (job : Job) (held : Holdings) (i : Intent) :
    (.step (.callAdapter i) fun reply =>
      .step (.renewLease job.id worker cfg.lease.visibilityTimeout) fun
        | .error .crash => returnPassage held.route held.passage (fail .crash)
        | _ => settle cfg worker job held.route held.passage (reply.toOutcome i.platform) :
        Attempt Disposition).Ensures (stint worker job.id) Stint.Ends (.begun job) := by
  refine ⟨Or.inr trivial, fun reply => ?_⟩
  have after : (stint worker job.id).after (.begun job) ⟨.callAdapter i, reply⟩ =
      if (reply.toOutcome i.platform).isEnvironmentFailure then .called job else .lost := rfl
  rw [after]
  split_ifs with strained
  · exact stint_called cfg worker job held strained
  · exact stint_lost _

theorem stint_carryOut (held : Holdings) : (carryOut cfg worker job held).Ensures
    (stint worker job.id) Stint.Ends (.begun job) := by
  refine stint_step rfl fun content => ?_
  cases content.apply job.intent with
  | none => exact stint_returnAll (Stint.ends_crash _)
  | some intent =>
    refine ⟨Or.inr ⟨rfl, rfl⟩, fun r => ?_⟩
    cases r with
    | error e => exact stint_lost _
    | ok => exact stint_step rfl fun sent => stint_step rfl fun _ =>
      stint_call cfg worker job held intent

theorem stint_beginAttempt (held : Holdings) : (beginAttempt cfg worker job held).Ensures
    (stint worker job.id) Stint.Ends (.held job) := by
  refine ⟨Or.inr rfl, fun r => ?_⟩
  rcases r with _ | (_ | _ | _)
  · exact stint_lost _
  · exact stint_carryOut held
  · exact stint_lost _
  · exact stint_lost _

/-- A job whose turn has come goes the whole way. -/
theorem stint_process (cfg : Config) (worker : String) (job : Job) :
    (process cfg worker job).Ensures (stint worker job.id) Stint.Ends (.held job) := by
  refine stint_step rfl fun now => stint_step rfl fun wait => ?_
  split_ifs
  · exact stint_defer _ _
  · refine stint_step rfl fun passage => ?_
    split_ifs
    · exact stint_defer _ _
    · refine stint_step rfl fun room => ?_
      split_ifs
      · exact stint_returnPassage (stint_defer _ _)
      · exact stint_beginAttempt _

/-- Serving a job is about that job. -/
theorem minds_of_serves (a : Action) (h : a.Serves worker job) : a.Minds job := by
  cases a with
  | renewLease | completeJob | releaseJob | deadLetterJob => exact h.1
  | beginAttempt | completeAttempt | clearAttempt => exact h
  | callAdapter => trivial
  | emit n => cases n <;> first | rfl | exact h.elim
  | _ => first | rfl | exact h.elim

/-- While the job waits or is in nobody's hands, the turns of others make no difference to it. -/
theorem stint_other (hs : s = .away ∨ ∃ k, s = .waiting k) (other : job.id ≠ id) (cfg : Config)
    (worker : String) :
    (process cfg worker job).Ensures (stint worker id) (fun s' _ => s' = s) s := by
  refine ((serves_process cfg worker job).mono minds_of_serves).ensures fun a minds => ?_
  have spares := minds.spares other
  by_cases quiet : a.isQuiet = true
  · exact stint_quiet quiet
  · obtain rfl | ⟨k, rfl⟩ := hs
    · cases a <;> first | exact ⟨Or.inr spares, fun _ => rfl⟩ | exact absurd spares quiet
    · cases a <;> first | exact ⟨Or.inr spares, fun _ => rfl⟩ | exact absurd spares quiet

theorem stint_signal {α : Type} {status : String} {k : Attempt α}
    (h : k.Ensures (stint worker id) Stint.Ends s) :
    (signal worker status k).Ensures (stint worker id) Stint.Ends s := by
  refine stint_step rfl fun r => ?_
  rcases r with (_ | _) | _
  · exact h
  · exact Stint.ends_crash _
  · exact h

theorem stint_regardless {α β : Type} {p : Attempt α} {k : Attempt β}
    {mid : Stint → Except Failure α → Prop} (h : p.Ensures (stint worker id) mid s)
    (onward : ∀ s r, mid s r → r ≠ .error .crash → k.Ensures (stint worker id) Stint.Ends s) :
    (p.regardless k).Ensures (stint worker id) Stint.Ends s := by
  refine h.bind fun s r hr => ?_
  rcases r with (_ | _) | _
  · exact onward s _ hr nofun
  · exact Stint.ends_crash s
  · exact onward s _ hr nofun

/-- The turns of a batch that the job is not in. -/
theorem stint_without (cfg : Config) {jobs : List Job} (others : ∀ j ∈ jobs, j.id ≠ id)
    (hs : s = .loose ∨ s = .away ∨ s = .lost) :
    (processEach cfg worker jobs).Ensures (stint worker id) Stint.Ends s := by
  induction jobs generalizing s with
  | nil => exact Or.inr hs
  | cons job jobs ih =>
    have other := others job List.mem_cons_self
    have rest := fun s => ih (s := s) fun j hj => others j (List.mem_cons_of_mem _ hj)
    have turn : (regardless (process cfg worker job) (processEach cfg worker jobs)).Ensures
        (stint worker id) Stint.Ends .away :=
      stint_regardless (stint_other (Or.inl rfl) other cfg worker) fun s _ same _ =>
        rest s (Or.inr (Or.inl same))
    refine stint_signal ?_
    rcases hs with rfl | rfl | rfl
    · exact ⟨Or.inr other, fun _ => turn⟩
    · exact ⟨Or.inr other, fun _ => turn⟩
    · exact stint_lost _

/-- The turns of a batch that the job is in once. -/
theorem stint_with (cfg : Config) {jobs : List Job} {k : Job}
    (once : (jobs.filter fun j => j.id = id) = [k]) :
    (processEach cfg worker jobs).Ensures (stint worker id) Stint.Ends (.waiting k) := by
  induction jobs with
  | nil => cases once
  | cons job jobs ih =>
    refine stint_signal ⟨Or.inr trivial, fun _ => ?_⟩
    by_cases hid : job.id = id
    · rw [List.filter_cons_of_pos (by simpa using hid), List.cons.injEq] at once
      obtain ⟨rfl, none_⟩ := once
      have others : ∀ j ∈ jobs, j.id ≠ id := by simpa [List.filter_eq_nil_iff] using none_
      subst hid
      rw [show (stint worker job.id).after (.waiting job)
        ⟨.emit (.leased job.id worker job.attemptCount), ()⟩ = .held job from if_pos rfl]
      refine stint_regardless (stint_process cfg worker job) fun s r ended survived => ?_
      exact stint_without cfg others (ended.resolve_left survived)
    · rw [List.filter_cons_of_neg (by simpa using hid)] at once
      rw [show (stint worker id).after (.waiting k)
        ⟨.emit (.leased job.id worker job.attemptCount), ()⟩ = .waiting k from if_neg hid]
      refine stint_regardless (stint_other (Or.inr ⟨k, rfl⟩) hid cfg worker) fun s _ same _ => ?_
      rw [same]
      exact ih once

/-- A cycle takes every job through one stint at most. -/
theorem stint_runOnce (cfg : Config) (worker : String) (id : JobId) :
    (runOnce cfg worker).Ensures (stint worker id) Stint.Ends .loose := by
  refine stint_signal ⟨Or.inr rfl, fun r => ?_⟩
  cases r with
  | error e => exact Stint.ends_loose _
  | ok jobs =>
    have turns : (processEach cfg worker jobs).Ensures (stint worker id) Stint.Ends
        (.ofBatch id jobs) := by
      cases hb : jobs.filter fun j => j.id = id with
      | nil =>
        rw [Stint.ofBatch, hb]
        refine stint_without cfg ?_ (Or.inr (Or.inl rfl))
        simpa [List.filter_eq_nil_iff] using hb
      | cons k rest =>
        cases rest with
        | nil =>
          rw [Stint.ofBatch, hb]
          exact stint_with cfg hb
        | cons =>
          rw [Stint.ofBatch, hb]
          exact stint_lost _
    refine turns.bind fun s r ended => ?_
    cases r with
    | error e => exact ended.imp_left fun h => by cases h; rfl
    | ok => exact Or.inr (ended.resolve_left nofun)

end Worker

end Courier
