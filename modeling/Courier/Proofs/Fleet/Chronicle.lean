import Courier.Proofs.Fleet.Turn
import Courier.Proofs.Queue.Identity
import Courier.Proofs.Worker

/-! From the job that was submitted to the envelope that reports it. A chronicle is a run of a fleet
together with the calls that its queue went through. New jobs come under ids that were not used
before, and a worker begins with jobs that a lease handed to it, however long ago. -/

namespace Courier

open Plan

/-- The envelope speaks of the job `c`. -/
def Envelope.Carries (x : Envelope) (c : Job) : Prop :=
  x.jobId = c.id ∧ x.intentId = c.intentId ∧ x.contextKey = c.contextKey ∧
    x.reservation = c.reservation

/-- The adapter was called with `i`, or is being called with it. -/
def Errand.HasAsked (x : Errand) (i : Intent) : Prop :=
  (∃ next, x.stage = .calling i next) ∨ ∃ r, (⟨.callAdapter i, r⟩ : Deed) ∈ x.past

theorem Envelope.carries_ofJob {j c : Job} (same : j.terms = c.terms) (o : Outcome)
    (t : Timestamp) : (ofJob j o t).Carries c := by
  have work := Job.work_of_terms same
  exact ⟨Job.id_of_terms same, congrArg (fun w => w.intent.intentId) work,
    congrArg Job.Work.contextKey work, congrArg Job.Work.reservation work⟩

/-- The jobs that a worker is given are those that the queue has leased to it. -/
theorem Engine.leaseJobs_handed {e e' : Engine} {worker : String} {batch : Nat} {visibility : Span}
    {jobs : List Job}
    (h : e.perform (.leaseJobs worker batch visibility) = .reply (.ok jobs) e') :
    ∃ js, (Queue.Call.lease worker batch visibility).answer e.now e.queue = .ok (.jobs js) ∧
      ∀ j ∈ jobs, j ∈ js := by
  refine ⟨_, rfl, fun j hj => ?_⟩
  rcases call_cases (reply_inj h) with ⟨-, idle⟩ | ⟨e₁, kept, hnow, hr, -⟩
  · -- an unreachable queue answers only when nothing is asked of it
    have offline := idle jobs rfl
    split_ifs at offline
    · cases offline
      cases hj
    · cases offline
  · rw [← hnow, ← kept.queue nofun]
    cases hr
    exact hj

namespace Fleet

/-- What a call on the queue of `e` adds to the history. -/
def logged (e : Engine) (c? : Option Queue.Call) : List Queue.Entry :=
  (c?.map fun c => ⟨e.now, c, e.queue⟩).toList

/-- A run of a fleet from the engine `e` on, and the calls that its queue has gone through. -/
inductive Chronicle (e : Engine) : List Queue.Entry → Fleet → Prop where
  | start : Chronicle e [] (idle e)
  | begin {h : List Queue.Entry} {f : Fleet} (cfg : Config) {worker : String} {job : Job} :
      Chronicle e h f → Queue.Handed h worker job →
      Chronicle e h { f with errands := f.errands ++ [.begin cfg worker job] }
  | move {h : List Queue.Entry} {f : Fleet} {n : Nat} {x x' : Errand} {e' : Engine}
      {c? : Option Queue.Call} : Chronicle e h f → f.errands[n]? = some x →
      x.Move f.engine e' x' → f.engine.Made c? e' → (∀ c, c? = some c → Queue.Fresh h c) →
      Chronicle e (h ++ logged f.engine c?) ⟨e', f.errands.set n x'⟩
  | outside {h : List Queue.Entry} {f : Fleet} {e' : Engine} {c? : Option Queue.Call} :
      Chronicle e h f → f.engine.Outside e' → f.engine.Made c? e' →
      (∀ c, c? = some c → Queue.Fresh h c) →
      Chronicle e (h ++ logged f.engine c?) { f with engine := e' }

namespace Chronicle

variable {e : Engine} {h : List Queue.Entry} {f : Fleet}

theorem steps (chronicle : Chronicle e h f) : Steps (idle e) f := by
  induction chronicle with
  | start => exact .refl
  | begin cfg _ _ ih => exact ih.tail (.begin cfg _ _)
  | move _ hx move _ _ ih => exact ih.tail (.move hx move)
  | outside _ out _ _ ih => exact ih.tail (.outside out)

/-- The queue goes through the calls of its history. -/
theorem run (chronicle : Chronicle e h f) (hq : e.queue = .empty) :
    Queue.Run h f.engine.queue := by
  have made : ∀ {h : List Queue.Entry} {e₁ e₂ : Engine} {c? : Option Queue.Call},
      Queue.Run h e₁.queue → e₁.Made c? e₂ → (∀ c, c? = some c → Queue.Fresh h c) →
      Queue.Run (h ++ logged e₁ c?) e₂.queue := by
    intro h e₁ e₂ c? run made fresh
    cases c? with
    | none =>
      rw [show e₂.queue = e₁.queue from made]
      simpa [logged] using run
    | some c =>
      obtain ⟨x, ok⟩ := made
      have after : c.after e₁.now e₁.queue = e₂.queue := by
        rw [Queue.Call.after, ok]
      rw [← after]
      exact run.snoc e₁.now c (fresh c rfl)
  induction chronicle with
  | start =>
    rw [show (idle e).engine.queue = .empty from hq]
    exact .nil
  | begin _ _ _ ih => exact ih
  | move _ _ _ ok fresh ih => exact made ih ok fresh
  | outside _ _ ok fresh ih => exact made ih ok fresh

/-- Every errand is about a job that was accepted, with the terms that it was accepted with. -/
theorem errand_accepted (chronicle : Chronicle e h f) (hq : e.queue = .empty) {x : Errand}
    (hx : x ∈ f.errands) : ∃ c, Queue.Accepts h c ∧ x.job.terms = c.terms := by
  induction chronicle generalizing x with
  | start => cases hx
  | begin cfg chronicle handed ih =>
    rcases List.mem_append.1 hx with hx | hx
    · exact ih hx
    · rw [List.mem_singleton.1 hx]
      exact (chronicle.run hq).exists_accepts_of_handed handed
  | move _ hn move _ _ ih =>
    rcases List.mem_or_eq_of_mem_set hx with hx | rfl
    · obtain ⟨c, acc, same⟩ := ih hx
      exact ⟨c, acc.mono (List.subset_append_left _ _), same⟩
    · obtain ⟨c, acc, same⟩ := ih (List.mem_of_getElem? hn)
      exact ⟨c, acc.mono (List.subset_append_left _ _), move.job ▸ same⟩
  | outside _ _ _ _ ih =>
    obtain ⟨c, acc, same⟩ := ih hx
    exact ⟨c, acc.mono (List.subset_append_left _ _), same⟩

end Chronicle

/-- All that an errand has done and will do serves its job. -/
theorem Steps.serves {e : Engine} {f : Fleet} (run : Steps (idle e) f) {x : Errand}
    (hx : x ∈ f.errands) : (∀ d ∈ x.past, d.action.Serves x.worker x.job) ∧
      x.stage.plan.Uses (Action.Serves x.worker x.job) := by
  refine Steps.errand_induction (P := fun worker job past p =>
    (∀ d ∈ past, d.action.Serves worker job) ∧ p.Uses (Action.Serves worker job))
    (fun cfg worker job => ⟨by simp, Worker.serves_process cfg worker job⟩) ?_ run hx
  rintro worker job past a next r ⟨served, serves⟩
  refine ⟨fun d hd => ?_, serves.2 r⟩
  rcases List.mem_append.1 hd with hd | hd
  · exact served d hd
  · rw [List.mem_singleton.1 hd]
    exact serves.1

/-- Every envelope in the inbox speaks of a job that was accepted. -/
theorem Chronicle.envelope_accepted {e : Engine} {h : List Queue.Entry} {f : Fleet}
    (chronicle : Chronicle e h f) (hq : e.queue = .empty) (hi : e.inbox = .empty) {y : Envelope}
    (hy : y ∈ f.engine.inbox.envelopes) : ∃ c, Queue.Accepts h c ∧ y.Carries c := by
  induction chronicle with
  | start =>
    rw [show (idle e).engine.inbox = .empty from hi] at hy
    exact absurd (Inbox.mem_envelopes.1 hy) (by simp [Inbox.empty, Table.values, Table.empty])
  | begin _ _ _ ih => exact ih hy
  | @move h f n x x' e' c? chronicle hn move _ _ ih =>
    have hmem := List.mem_of_getElem? hn
    have old : y ∈ f.engine.inbox.envelopes →
        ∃ c, Queue.Accepts (h ++ logged f.engine c?) c ∧ y.Carries c := by
      intro hy
      obtain ⟨c, acc, carries⟩ := ih hy
      exact ⟨c, acc.mono (List.subset_append_left _ _), carries⟩
    rcases move.cases with ⟨a, r, ans⟩ | ⟨rfl, -, -⟩
    · rcases ans.source with ⟨-, rfl⟩ | ⟨own, done⟩
      · exact old hy
      · rcases Engine.perform_envelopes own done hy with hy | rfl
        · exact old hy
        · obtain ⟨next, planned, -⟩ := ans.planned
          have serves := (chronicle.steps.serves hmem).2
          rw [planned] at serves
          obtain ⟨o, t, rfl⟩ := serves.1
          obtain ⟨c, acc, same⟩ := chronicle.errand_accepted hq hmem
          exact ⟨c, acc.mono (List.subset_append_left _ _), Envelope.carries_ofJob same o t⟩
    · exact old hy
  | outside chronicle out _ _ ih =>
    obtain ⟨c, acc, carries⟩ := ih (out.mem_envelopes hy)
    exact ⟨c, acc.mono (List.subset_append_left _ _), carries⟩

/-- What the adapter is asked to carry out is the intent of the job, with its payload as the
materializer made it. -/
theorem Steps.asked {e : Engine} {f : Fleet} (run : Steps (idle e) f) {x : Errand}
    (hx : x ∈ f.errands) {i : Intent} (asked : x.HasAsked i) :
    ∃ content : ContentReply, content.apply x.job.intent = some i := by
  obtain ⟨past, serves⟩ := run.serves hx
  rcases asked with ⟨next, hs⟩ | ⟨r, hd⟩
  · rw [hs] at serves
    exact serves.1
  · exact past _ hd

/-- Every stored job has the terms that it was accepted with, and it was accepted with those that
it was enqueued with; every job has the work of the first of its chain; every envelope in the inbox
speaks of a job that was accepted, and every adapter call is for the intent of one. -/
theorem Chronicle.submitted_is_reported {config : Config} {start : Timestamp}
    {surroundings : Surroundings} {h : List Queue.Entry} {f : Fleet}
    (chronicle : Chronicle (.create config start surroundings) h f) :
    (∀ id k, f.engine.queue.get? id = some k →
      ∃ c, Queue.Accepts h c ∧ c.id = id ∧ k.terms = c.terms) ∧
    (∀ c, Queue.Accepts h c →
      (∀ c', Queue.Accepts h c' → c'.id = c.id → c' = c) ∧
      (∀ e ∈ h, ∀ j, e.Creates c → e.call = .enqueue j → c.terms = j.terms) ∧
      (∃ first, Queue.Chain h first c) ∧ ∀ first, Queue.Chain h first c → c.work = first.work) ∧
    (∀ y ∈ f.engine.inbox.envelopes, ∃ c, Queue.Accepts h c ∧ y.Carries c) ∧
    ∀ x ∈ f.errands, ∃ c, Queue.Accepts h c ∧ x.job.terms = c.terms ∧
      ∀ i, x.HasAsked i → ∃ content : ContentReply, content.apply c.intent = some i := by
  have run := chronicle.run rfl
  refine ⟨fun id k stored => ?_, fun c acc => ⟨fun c' acc' same => ?_, ?_, ?_, ?_⟩, ?_, ?_⟩
  · obtain ⟨c, acc, same⟩ := run.exists_accepts stored
    exact ⟨c, acc, (Job.id_of_terms same).symm.trans (run.keyed id k stored), same⟩
  · exact run.accepts_unique acc acc' same
  · intro e he j created call
    obtain ⟨pre, post, rfl⟩ := List.append_of_mem he
    rcases run.upTo.accepted_as created with ⟨j', call', same⟩ | ⟨p, -, call', -⟩
    · rw [call] at call'
      cases call'
      exact same
    · rw [call] at call'
      cases call'
  · exact run.exists_chain acc
  · exact fun first => run.work_of_chain
  · exact fun y => chronicle.envelope_accepted rfl rfl
  · intro x hx
    obtain ⟨c, acc, same⟩ := chronicle.errand_accepted rfl hx
    refine ⟨c, acc, same, fun i asked => ?_⟩
    obtain ⟨content, applied⟩ := chronicle.steps.asked hx asked
    refine ⟨content, ?_⟩
    rwa [← show x.job.intent = c.intent from congrArg Job.Work.intent (Job.work_of_terms same)]

/-- A worker leases a job and begins with it. -/
def takesUp (worker : String) (f : Fleet) : Fleet :=
  match f.engine.perform (.leaseJobs worker 1 (.ofMillis 1000)) with
  | .reply (.ok (job :: _)) e' => ⟨e', f.errands ++ [.begin e'.config worker job]⟩
  | _ => f

namespace Chronicle

variable {e : Engine} {h : List Queue.Entry} {f g : Fleet}

/-- A call is answered with a new job only if it brings one. -/
theorem mem_accepted_logged {c? : Option Queue.Call} {e : Engine} {id : JobId}
    (hid : id ∈ Queue.accepted (h ++ logged e c?)) :
    id ∈ Queue.accepted h ∨ ∃ c, c? = some c ∧ c.newId? = some id := by
  cases c? with
  | none =>
    left
    simpa [logged] using hid
  | some c =>
    rw [show logged e (some c) = [⟨e.now, c, e.queue⟩] from rfl, Queue.accepted_snoc,
      List.mem_append, Option.mem_toList] at hid
    refine hid.imp_right fun new => ⟨c, rfl, ?_⟩
    rcases c.after_cases e.now e.queue with ⟨x, answer, -⟩ | ⟨a, answer, change⟩
    · simp [Queue.Entry.accepted?, Queue.Entry.answer, answer] at new
    · simp only [Queue.Entry.accepted?, Queue.Entry.answer, answer] at new
      generalize c.after e.now e.queue = q at change
      cases change with
      | takenIn | replayed =>
        cases new
        rfl
      | _ => cases new

/-- A chronicle goes on to `g`, and no job is accepted on the way. -/
def GoesOn (e : Engine) (f g : Fleet) : Prop :=
  ∀ h, Chronicle e h f → ∃ h', Chronicle e h' g ∧ Queue.accepted h' ⊆ Queue.accepted h

theorem GoesOn.trans {f₁ f₂ f₃ : Fleet} (on : GoesOn e f₁ f₂) (on' : GoesOn e f₂ f₃) :
    GoesOn e f₁ f₃ := by
  intro h chronicle
  obtain ⟨h₂, chronicle₂, sub₂⟩ := on h chronicle
  obtain ⟨h₃, chronicle₃, sub₃⟩ := on' h₂ chronicle₂
  exact ⟨h₃, chronicle₃, List.Subset.trans sub₃ sub₂⟩

theorem GoesOn.refl (e : Engine) (f : Fleet) : GoesOn e f f :=
  fun h chronicle => ⟨h, chronicle, List.Subset.refl _⟩

theorem GoesOn.move {n : Nat} {x x' : Errand} {e' : Engine} (hx : f.errands[n]? = some x)
    (move : x.Move f.engine e' x') : GoesOn e f ⟨e', f.errands.set n x'⟩ := by
  intro h chronicle
  have on : ∀ c? : Option Queue.Call, f.engine.Made c? e' →
      (∀ c, c? = some c → c.newId? = none) → ∃ h', Chronicle e h' ⟨e', f.errands.set n x'⟩ ∧
        Queue.accepted h' ⊆ Queue.accepted h := by
    intro c? made old
    refine ⟨_, .move chronicle hx move made fun c hc id hid => ?_, fun id hid => ?_⟩
    · rw [old c hc] at hid
      cases hid
    · rcases mem_accepted_logged hid with hid | ⟨c, hc, new⟩
      · exact hid
      · rw [old c hc] at new
        cases new
  rcases move.cases with ⟨a, r, ans⟩ | ⟨rfl, -, -⟩
  · rcases ans.source with ⟨-, rfl⟩ | ⟨own, done⟩
    · exact on none (Eq.refl f.engine.queue) fun c hc => nomatch hc
    · exact on _ (Engine.perform_made own done) fun c => Deed.newId?_of_made
  · exact on none (Eq.refl f.engine.queue) fun c hc => nomatch hc

theorem GoesOn.turns (n count : Nat) : GoesOn e f (f.turns n count) := by
  have run := turns_run n count f (R := GoesOn e) fun k _ x x' e' hx move => .move hx move
  generalize f.turns n count = g at run
  induction run with
  | refl => exact .refl e f
  | tail _ on ih => exact ih.trans on

theorem GoesOn.arrive (n : Nat) (r : AdapterReply) : GoesOn e f (f.follow (.arrive n r)) := by
  unfold follow
  dsimp only
  split
  · rename_i hx
    split
    · rename_i hs
      exact .move hx (.arrive r hs)
    · exact .refl e f
  · exact .refl e f

theorem GoesOn.takesUp (worker : String) : GoesOn e f (f.takesUp worker) := by
  intro h chronicle
  rw [Fleet.takesUp]
  split
  · rename_i job jobs e' done
    obtain ⟨js, answer, given⟩ := Engine.leaseJobs_handed done
    let c : Queue.Call := .lease worker 1 (.ofMillis 1000)
    have leased : Chronicle e (h ++ logged f.engine (some c)) { f with engine := e' } := by
      refine chronicle.outside (.loop rfl rfl done) (Engine.perform_made rfl done) ?_
      rintro _ ⟨⟩ id hid
      cases hid
    refine ⟨_, .begin e'.config leased ?_, fun id hid => ?_⟩
    · exact ⟨⟨f.engine.now, c, f.engine.queue⟩, by simp [logged], 1, .ofMillis 1000, js, rfl,
        answer, given job List.mem_cons_self⟩
    · rcases mem_accepted_logged hid with hid | ⟨_, ⟨⟩, new⟩
      · exact hid
      · cases new
  · exact ⟨h, chronicle, List.Subset.refl _⟩

/-- A caller submits a job under a new id. -/
theorem enqueue (chronicle : Chronicle e h f) {j : Job} (fresh : j.id ∉ Queue.accepted h) :
    ∃ h', Chronicle e h' { f with engine := (f.engine.enqueue j).2 } ∧
      ∀ id ∈ Queue.accepted h', id ∈ Queue.accepted h ∨ id = j.id := by
  rcases (Engine.enqueue_effect j f.engine).2 with made | made
  · refine ⟨_, chronicle.outside (.enqueue j) made (fun c hc => nomatch hc), fun id hid => ?_⟩
    rcases mem_accepted_logged hid with hid | ⟨c, hc, -⟩
    · exact Or.inl hid
    · cases hc
  · refine ⟨_, chronicle.outside (.enqueue j) made ?_, fun id hid => ?_⟩
    · rintro _ ⟨⟩ id hid
      cases hid
      exact fresh
    · refine (mem_accepted_logged hid).imp_right ?_
      rintro ⟨c, hc, new⟩
      cases hc
      cases new
      rfl

/-- An operator replays a dead letter, and the id for the new job is a new one. -/
theorem replay (chronicle : Chronicle e h f) (id : JobId) (actor : String)
    (fresh : (⟨f.engine.ids.next⟩ : JobId) ∉ Queue.accepted h) :
    ∃ h', Chronicle e h' { f with engine := (f.engine.replay id actor).2 } := by
  rcases (Engine.replay_effect id actor f.engine).2 with made | made
  · exact ⟨_, chronicle.outside (.replay id actor) made fun c hc => nomatch hc⟩
  · refine ⟨_, chronicle.outside (.replay id actor) made ?_⟩
    rintro _ ⟨⟩ id hid
    cases hid
    exact fresh

end Chronicle

/-- A job that may be tried once meets a failure and is dead-lettered. -/
def buriedJob : Fleet :=
  ((((idle (.create .usual .epoch .quiet)).follow (.enqueue
    { Queue.sampleJob 1 "post-1" with contextKey := "account-7", maxAttempts := 1 })).takesUp
      "w-1").turns 0 20).follow (.arrive 0 (.outcome (.environment "boom"))) |>.turns 0 20

/-- An operator replays it, and the child is done. -/
def replayedJob : Fleet :=
  (({ buriedJob with engine := (buriedJob.engine.replay ⟨.ofNat 1⟩ "op").2 }.takesUp
    "w-2").turns 1 20).follow (.arrive 1 (.outcome .success)) |>.turns 1 20

/-- Both envelopes speak of the work that was submitted. -/
theorem submitted_is_reported_replayedJob :
    ∃ h, Chronicle (.create .usual .epoch .quiet) h replayedJob ∧
      replayedJob.engine.inbox.records.values.map (fun r => r.envelope.jobId) =
        [⟨.ofNat 1⟩, ⟨buriedJob.engine.ids.next⟩] ∧
      ∀ y ∈ replayedJob.engine.inbox.envelopes, ∃ c first, Queue.Accepts h c ∧ y.Carries c ∧
        Queue.Chain h first c ∧ c.work = first.work := by
  let e : Engine := .create .usual .epoch .quiet
  let job : Job := { Queue.sampleJob 1 "post-1" with contextKey := "account-7", maxAttempts := 1 }
  obtain ⟨h₁, submitted, ids⟩ := (Chronicle.start (e := e)).enqueue (j := job)
    (by simp [Queue.accepted])
  have tried : Chronicle.GoesOn e ((idle e).follow (.enqueue job)) buriedJob :=
    (((Chronicle.GoesOn.takesUp "w-1").trans (.turns 0 20)).trans
      (.arrive 0 (.outcome (.environment "boom")))).trans (.turns 0 20)
  obtain ⟨h₂, buried, sub⟩ := tried h₁ submitted
  have fresh : (⟨buriedJob.engine.ids.next⟩ : JobId) ∉ Queue.accepted h₂ := by
    intro hid
    rcases ids _ (sub hid) with hid | hid
    · simp [Queue.accepted] at hid
    · exact absurd hid (by decide +kernel)
  obtain ⟨h₃, replayed⟩ := buried.replay ⟨.ofNat 1⟩ "op" fresh
  have done : Chronicle.GoesOn e
      { buriedJob with engine := (buriedJob.engine.replay ⟨.ofNat 1⟩ "op").2 } replayedJob :=
    (((Chronicle.GoesOn.takesUp "w-2").trans (.turns 1 20)).trans
      (.arrive 1 (.outcome .success))).trans (.turns 1 20)
  obtain ⟨h, chronicle, -⟩ := done h₃ replayed
  obtain ⟨-, jobs, envelopes, -⟩ := chronicle.submitted_is_reported
  refine ⟨h, chronicle, by decide +kernel, fun y hy => ?_⟩
  obtain ⟨c, acc, carries⟩ := envelopes y hy
  obtain ⟨-, -, ⟨first, chain⟩, work⟩ := jobs c acc
  exact ⟨c, first, acc, carries, chain, work first chain⟩

end Fleet

end Courier
