import Courier.Proofs.Fleet.Basic

/-! The course of an errand: from the gates to the attempt, to the adapter call, and by its outcome
to the end of the job or to another attempt. All that is proved of single errands is read off it. -/

namespace Courier

open Plan

/-- Where an errand is on its course. -/
inductive Phase where
  /-- It has no attempt in its hands. -/
  | atGates
  /-- It has begun the attempt. -/
  | begun
  /-- It has renewed its lease and may call the adapter. -/
  | armed
  /-- The adapter reported a success. -/
  | won
  /-- The adapter reported a failure of the environment. -/
  | strained
  /-- The adapter reported any other failure. -/
  | failed
  /-- The success is written down. -/
  | recorded
  /-- After a final failure the attempt is given up, and the job is to be acknowledged. -/
  | cleared
  /-- An envelope is due. -/
  | owing
  /-- The inbox took the envelope, or had one already. -/
  | paid
  /-- The queue refused the acknowledgement. -/
  | refused
  /-- A store failed or the worker crashed in a call. -/
  | broken
deriving DecidableEq

/-- The phase after an adapter call with outcome `o`. -/
def Phase.ofOutcome (o : Outcome) : Phase :=
  if o.isSuccess then .won else if o.isEnvironmentFailure then .strained else .failed

theorem Phase.ofOutcome_cases (o : Outcome) :
    Phase.ofOutcome o = .won ∨ Phase.ofOutcome o = .strained ∨ Phase.ofOutcome o = .failed := by
  unfold ofOutcome
  split_ifs <;> simp

theorem Phase.ofOutcome_ne (o : Outcome) {s : Phase}
    (hs : s ≠ .won ∧ s ≠ .strained ∧ s ≠ .failed) : Phase.ofOutcome o ≠ s := by
  rintro rfl
  rcases Phase.ofOutcome_cases o with h | h | h
  · exact hs.1 h
  · exact hs.2.1 h
  · exact hs.2.2 h

/-- What `worker` may do with `job`, phase by phase. It does not look for other jobs meanwhile, nor
go to sleep. -/
def course (worker : String) (job : Job) : Rule Phase where
  allows s
    | .beginAttempt k => k = job.attemptKey ∧ s = .atGates
    | .renewLease id w _ => (id = job.id ∧ w = worker) ∧
        (s = .begun ∨ s = .won ∨ s = .strained ∨ s = .failed)
    | .callAdapter _ => s = .armed
    | .completeAttempt k _ => k = job.attemptKey ∧ s = .won
    | .clearAttempt k => k = job.attemptKey ∧ (s = .begun ∨ s = .strained ∨ s = .failed)
    | .completeJob id w => (id = job.id ∧ w = worker) ∧
        (s = .atGates ∨ s = .recorded ∨ s = .cleared)
    | .releaseJob id w _ _ _ => (id = job.id ∧ w = worker) ∧ s = .atGates
    | .deadLetterJob id w _ _ => (id = job.id ∧ w = worker) ∧ s = .atGates
    | .appendEnvelope x => x.jobId = job.id ∧ s = .owing
    | .leaseJobs _ _ _ | .pruneEnvelopes _ => False
    | .pause _ | .pauseForEnvelope _ | .join _ _ | .sleep _ => False
    | _ => True
  after s
    | ⟨.beginAttempt _, .ok .first⟩ => .begun
    | ⟨.beginAttempt _, .error _⟩ => .broken
    | ⟨.renewLease _ _ _, .ok _⟩ => if s = .begun then .armed else s
    | ⟨.renewLease _ _ _, .error .crash⟩ => .broken
    | ⟨.callAdapter i, r⟩ => .ofOutcome (r.toOutcome i.platform)
    | ⟨.completeAttempt _ _, .ok _⟩ => .recorded
    | ⟨.completeAttempt _ _, .error _⟩ => .broken
    | ⟨.clearAttempt _, .ok _⟩ => if s = .failed then .cleared else .atGates
    | ⟨.clearAttempt _, .error _⟩ => .broken
    | ⟨.completeJob _ _, .ok _⟩ => .owing
    | ⟨.completeJob _ _, .error .crash⟩ => .broken
    | ⟨.completeJob _ _, .error (.error _)⟩ => if s = .recorded then .owing else .refused
    | ⟨.deadLetterJob _ _ _ _, .ok _⟩ => .owing
    | ⟨.appendEnvelope _, .ok _⟩ => .paid
    | ⟨.appendEnvelope _, .error _⟩ => .broken
    | _ => s
  ends s := s = .atGates ∨ s = .begun ∨ s = .paid ∨ s = .refused ∨ s = .broken

namespace Worker

variable {s : Phase} {cfg : Config} {worker : String} {job : Job} {route : String}

/-- A plan may fail where it may end. -/
theorem course_fail (e : Failure) (hs : (course worker job).ends s) :
    (fail e : Attempt Disposition).Keeps (course worker job) s := hs

theorem course_defer (reason : Deferral) (t : Timestamp) :
    (defer worker job reason t).Keeps (course worker job) .atGates := by
  refine ⟨⟨⟨rfl, rfl⟩, rfl⟩, fun r => ?_⟩
  cases r with
  | error e => exact course_fail e (by simp [course])
  | ok => exact ⟨trivial, fun _ => Or.inl rfl⟩

theorem course_publish (o : Outcome) (d : Disposition) :
    (publish job o d).Keeps (course worker job) .owing := by
  refine ⟨trivial, fun now => ⟨⟨rfl, rfl⟩, fun r => ?_⟩⟩
  cases r with
  | error e => exact course_fail e (by simp [course])
  | ok isNew =>
    have paid : (course worker job).ends .paid := by simp [course]
    cases isNew with
    | false => exact ⟨trivial, fun _ => paid⟩
    | true => exact ⟨trivial, fun _ => ⟨trivial, fun _ => paid⟩⟩

theorem course_deadLetter (reason : String) (o : Outcome) :
    (deadLetter worker job reason o).Keeps (course worker job) .atGates := by
  refine ⟨⟨⟨rfl, rfl⟩, rfl⟩, fun r => ?_⟩
  cases r with
  | error e => exact course_fail e (by simp [course])
  | ok => exact ⟨trivial, fun _ => course_publish o _⟩

theorem course_returnPassage {α : Type} {p : Passage} {k : Plan α}
    (h : k.Keeps (course worker job) s) :
    (returnPassage route p k).Keeps (course worker job) s := by
  unfold returnPassage
  split_ifs
  · exact ⟨trivial, fun _ => h⟩
  · exact h

theorem course_returnAll {α : Type} {held : Holdings} {k : Plan α}
    (h : k.Keeps (course worker job) s) : (returnAll held k).Keeps (course worker job) s :=
  ⟨trivial, fun _ => course_returnPassage h⟩

theorem course_handBack {α : Type} {held : Holdings} {k : Plan α}
    (h : k.Keeps (course worker job) s) : (handBack held k).Keeps (course worker job) s :=
  course_returnPassage ⟨trivial, fun _ => h⟩

theorem course_onSuccess (o : Outcome) :
    (onSuccess worker job route o).Keeps (course worker job) .won := by
  refine ⟨trivial, fun _ => ⟨trivial, fun _ => ⟨⟨rfl, rfl⟩, fun r => ?_⟩⟩⟩
  cases r with
  | error e => exact course_fail e (by simp [course])
  | ok =>
    refine ⟨⟨⟨rfl, rfl⟩, by simp [course]⟩, fun r => ?_⟩
    rcases r with (_ | _) | _
    · exact course_publish o _
    · exact course_fail _ (by simp [course])
    · exact course_publish o _

theorem course_onEnvironmentFailure (o : Outcome) :
    (onEnvironmentFailure cfg worker job route o).Keeps (course worker job) .strained := by
  refine ⟨trivial, fun _ => ⟨trivial, fun _ => ⟨⟨rfl, by simp [course]⟩, fun r => ?_⟩⟩⟩
  cases r with
  | error e => exact course_fail e (by simp [course])
  | ok =>
    dsimp only
    split_ifs
    · refine ⟨trivial, fun _ => ⟨trivial, fun _ => ⟨⟨⟨rfl, rfl⟩, rfl⟩, fun r => ?_⟩⟩⟩
      cases r with
      | error e => exact course_fail e (by simp [course])
      | ok => exact ⟨trivial, fun _ => Or.inl rfl⟩
    · exact course_deadLetter _ o

theorem course_onFinalFailure (p : Passage) (o : Outcome) :
    (onFinalFailure worker job route p o).Keeps (course worker job) .failed := by
  refine course_returnPassage ⟨⟨rfl, by simp⟩, fun r => ?_⟩
  cases r with
  | error e => exact course_fail e (by simp [course])
  | ok =>
    refine ⟨⟨⟨rfl, rfl⟩, by simp [course]⟩, fun r => ?_⟩
    rcases r with (_ | _) | _
    · exact course_fail _ (by simp [course])
    · exact course_fail _ (by simp [course])
    · exact course_publish o _

/-- What follows the call depends on its outcome. -/
theorem course_settle (p : Passage) (o : Outcome) :
    (settle cfg worker job route p o).Keeps (course worker job) (.ofOutcome o) := by
  unfold settle Phase.ofOutcome
  split_ifs
  · exact course_onSuccess o
  · exact course_onEnvironmentFailure o
  · exact course_onFinalFailure p o

/-- After the call the lease is renewed once more, and how that ends makes no difference. -/
theorem course_called (held : Holdings) (platform : String) (reply : AdapterReply) :
    (.step (.renewLease job.id worker cfg.lease.visibilityTimeout) fun
      | .error .crash => returnPassage held.route held.passage (fail .crash)
      | _ => settle cfg worker job held.route held.passage (reply.toOutcome platform) :
        Attempt Disposition).Keeps (course worker job) (.ofOutcome (reply.toOutcome platform)) := by
  generalize reply.toOutcome platform = o
  have called := Phase.ofOutcome_cases o
  refine ⟨⟨⟨rfl, rfl⟩, Or.inr called⟩, fun r => ?_⟩
  rcases r with (_ | _) | t
  · exact course_settle _ _
  · exact course_returnPassage (course_fail _ (by simp [course]))
  · have stays : (course worker job).after (.ofOutcome o)
        ⟨.renewLease job.id worker cfg.lease.visibilityTimeout, .ok t⟩ = .ofOutcome o :=
      if_neg (Phase.ofOutcome_ne o (by decide))
    rw [stays]
    exact course_settle _ _

theorem course_carryOut (held : Holdings) :
    (carryOut cfg worker job held).Keeps (course worker job) .begun := by
  refine ⟨trivial, fun content => ?_⟩
  dsimp only
  cases content.apply job.intent with
  | none => exact course_returnAll (course_fail _ (by simp [course]))
  | some intent =>
    refine ⟨⟨⟨rfl, rfl⟩, by simp [course]⟩, fun r => ?_⟩
    rcases r with (_ | _) | _
    · refine course_handBack ⟨⟨rfl, by simp [course]⟩, fun r => ?_⟩
      cases r with
      | error e => exact course_fail e (by simp [course])
      | ok => exact Or.inl rfl
    · exact course_returnAll (course_fail _ (by simp [course]))
    · refine ⟨trivial, fun _ => ⟨trivial, fun _ => ⟨rfl, fun reply => ?_⟩⟩⟩
      exact course_called held intent.platform reply

theorem course_beginAttempt (held : Holdings) :
    (beginAttempt cfg worker job held).Keeps (course worker job) .atGates := by
  refine ⟨⟨rfl, rfl⟩, fun r => ?_⟩
  rcases r with _ | (_ | ⟨stale, since⟩ | record)
  · exact course_returnAll (course_fail _ (by simp [course]))
  · exact course_carryOut held
  · cases stale with
    | false => exact course_handBack (course_defer _ _)
    | true => exact course_handBack (course_deadLetter _ _)
  · refine course_handBack ⟨⟨⟨rfl, rfl⟩, Or.inl rfl⟩, fun r => ?_⟩
    rcases r with (_ | _) | _
    · exact course_fail _ (by simp [course])
    · exact course_fail _ (by simp [course])
    · exact course_publish _ _

/-- Processing a job keeps its course, whatever its calls are answered. -/
theorem course_process (cfg : Config) (worker : String) (job : Job) :
    (process cfg worker job).Keeps (course worker job) .atGates := by
  refine ⟨trivial, fun now => ⟨trivial, fun wait => ?_⟩⟩
  dsimp only
  split_ifs
  · exact course_defer _ _
  · refine ⟨trivial, fun passage => ?_⟩
    dsimp only
    split_ifs
    · exact course_defer _ _
    · refine ⟨trivial, fun room => ?_⟩
      dsimp only
      split_ifs
      · exact course_returnPassage (course_defer _ _)
      · exact course_beginAttempt _

end Worker

end Courier
