import Courier.Proofs.Fleet.Course

/-! How an errand settles its job. Taking the job out of the queue puts it in debt of an envelope;
the very next store call is the append that pays. -/

namespace Courier

open Plan

/-- What an errand owes to the inbox. -/
inductive Duty where
  | nothing
  /-- The job is out of the queue, and its envelope has not been sent. -/
  | envelope
  /-- The inbox took the envelope, or had one already. -/
  | paid
  /-- The inbox was asked and failed. -/
  | refused
deriving DecidableEq

/-- An errand ends its own job only, and once; it sends an envelope for its own job only, and once;
it does not go to sleep on its way, and does not come to its end in debt. -/
def settlement (id : JobId) : Rule Duty where
  allows s
    | .completeJob j _ => j = id ∧ s = .nothing
    | .deadLetterJob j _ _ _ => j = id ∧ s = .nothing
    | .appendEnvelope x => x.jobId = id ∧ (s = .nothing ∨ s = .envelope)
    | .pause _ | .pauseForEnvelope _ | .join _ _ | .sleep _ => False
    | _ => True
  after s
    | ⟨.completeJob _ _, .ok _⟩ => .envelope
    | ⟨.deadLetterJob _ _ _ _, .ok _⟩ => .envelope
    | ⟨.appendEnvelope _, .ok _⟩ => .paid
    | ⟨.appendEnvelope _, .error _⟩ => .refused
    | _ => s
  ends s := s ≠ .envelope

/-- The duty that goes with a phase. -/
def Phase.HasDuty : Phase → Duty → Prop
  | .owing, d => d = .nothing ∨ d = .envelope
  | .paid, d => d = .paid
  | .broken, d => d ≠ .envelope
  | _, d => d = .nothing

theorem Duty.ne_envelope {d : Duty} (h : d = .nothing) : d ≠ .envelope := by
  rw [h]
  decide

/-- An errand on its course settles its job. -/
theorem course_settles {worker : String} {job : Job} (s : Phase) (d : Duty) (a : Action)
    (h : s.HasDuty d) (allowed : (course worker job).allows s a) :
    (settlement job.id).allows d a ∧
      ∀ r, Phase.HasDuty ((course worker job).after s ⟨a, r⟩)
        ((settlement job.id).after d ⟨a, r⟩) := by
  cases a with
  | beginAttempt k =>
    obtain ⟨-, rfl⟩ := allowed
    refine ⟨trivial, fun r => ?_⟩
    rcases r with _ | (_ | _ | _)
    · exact Duty.ne_envelope h
    · exact h
    · exact h
    · exact h
  | renewLease id w visibility =>
    have nothing : d = .nothing := by rcases allowed.2 with rfl | rfl | rfl | rfl <;> exact h
    refine ⟨trivial, fun r => ?_⟩
    rcases r with (_ | _) | _
    · exact h
    · exact Duty.ne_envelope nothing
    · rcases allowed.2 with rfl | rfl | rfl | rfl <;> exact h
  | callAdapter i =>
    cases allowed
    refine ⟨trivial, fun r => ?_⟩
    show Phase.HasDuty (.ofOutcome (r.toOutcome i.platform)) d
    rcases Phase.ofOutcome_cases (r.toOutcome i.platform) with he | he | he <;> rw [he] <;> exact h
  | completeAttempt k m =>
    obtain ⟨-, rfl⟩ := allowed
    refine ⟨trivial, fun r => ?_⟩
    cases r with
    | error => exact Duty.ne_envelope h
    | ok => exact h
  | clearAttempt k =>
    have nothing : d = .nothing := by rcases allowed.2 with rfl | rfl | rfl <;> exact h
    refine ⟨trivial, fun r => ?_⟩
    cases r with
    | error => exact Duty.ne_envelope nothing
    | ok =>
      simp only [course, settlement]
      split_ifs <;> exact nothing
  | completeJob id w =>
    have nothing : d = .nothing := by rcases allowed.2 with rfl | rfl | rfl <;> exact h
    refine ⟨⟨allowed.1.1, nothing⟩, fun r => ?_⟩
    rcases r with (_ | _) | _
    · simp only [course, settlement]
      split_ifs
      · exact Or.inl nothing
      · exact nothing
    · exact Duty.ne_envelope nothing
    · exact Or.inr rfl
  | deadLetterJob id w entry reason =>
    obtain ⟨own, rfl⟩ := allowed
    refine ⟨⟨own.1, h⟩, fun r => ?_⟩
    cases r with
    | error => exact h
    | ok => exact Or.inr rfl
  | appendEnvelope x =>
    obtain ⟨own, rfl⟩ := allowed
    refine ⟨⟨own, h⟩, fun r => ?_⟩
    cases r with
    | error => exact fun owed => by cases owed
    | ok => rfl
  | leaseJobs | pruneEnvelopes | pause | pauseForEnvelope | join | sleep => exact allowed.elim
  | _ => exact ⟨trivial, fun _ => h⟩

/-- Processing a job settles it, whatever its calls are answered. -/
theorem Worker.settlement_process (cfg : Config) (worker : String) (job : Job) :
    (process cfg worker job).Keeps (settlement job.id) .nothing := by
  have start : Phase.atGates.HasDuty .nothing := rfl
  refine Keeps.simulate course_settles (fun s d h ends => ?_) start (course_process cfg worker job)
  rcases ends with rfl | rfl | rfl | rfl | rfl
  · exact Duty.ne_envelope h
  · exact Duty.ne_envelope h
  · exact fun owed => by cases h.symm.trans owed
  · exact Duty.ne_envelope h
  · exact h

end Courier
