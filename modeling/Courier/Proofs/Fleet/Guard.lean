import Courier.Proofs.Fleet.Course

/-! The guard of adapter calls. -/

namespace Courier

open Plan

/-- What an errand has in its hands under the key of its job. -/
inductive Grip where
  | free
  /-- The attempt is its own, to call the adapter or to give it up. -/
  | holding
  /-- The adapter reported a success that is not written down yet. -/
  | succeeded
deriving DecidableEq

/-- Whether a deed is an adapter call that came back with a success. -/
def Deed.isSuccess : Deed → Bool
  | ⟨.callAdapter i, r⟩ => (r.toOutcome i.platform).isSuccess
  | _ => false

/-- The adapter is called only with the attempt in hand; the attempt is cleared only while it has
not succeeded, and marked done only when it has. -/
def guard (key : String) : Rule Grip where
  allows g
    | .beginAttempt k => k = key ∧ g = .free
    | .completeAttempt k _ => k = key ∧ g = .succeeded
    | .clearAttempt k => k = key ∧ g = .holding
    | .callAdapter _ => g = .holding
    | _ => True
  after g
    | ⟨.beginAttempt _, .ok .first⟩ => .holding
    | ⟨.completeAttempt _ _, .ok _⟩ => .free
    | ⟨.clearAttempt _, .ok _⟩ => .free
    | ⟨.callAdapter i, r⟩ => if Deed.isSuccess ⟨.callAdapter i, r⟩ then .succeeded else g
    | _ => g
  ends _ := True

/-- The grip that goes with a phase; after a store has failed it may be any. -/
def Phase.HasGrip : Phase → Grip → Prop
  | .begun, g | .armed, g | .strained, g | .failed, g => g = .holding
  | .won, g => g = .succeeded
  | .broken, _ => True
  | _, g => g = .free

/-- An errand on its course keeps the guard. -/
theorem course_guards {worker : String} {job : Job} (s : Phase) (g : Grip) (a : Action)
    (h : s.HasGrip g) (allowed : (course worker job).allows s a) :
    (guard job.attemptKey).allows g a ∧
      ∀ r, Phase.HasGrip ((course worker job).after s ⟨a, r⟩)
        ((guard job.attemptKey).after g ⟨a, r⟩) := by
  cases a with
  | beginAttempt k =>
    obtain ⟨rfl, rfl⟩ := allowed
    refine ⟨⟨rfl, h⟩, fun r => ?_⟩
    rcases r with _ | (_ | _ | _)
    · trivial
    · rfl
    · exact h
    · exact h
  | renewLease id w visibility =>
    refine ⟨trivial, fun r => ?_⟩
    rcases r with (_ | _) | _
    · exact h
    · trivial
    · rcases allowed.2 with rfl | rfl | rfl | rfl <;> exact h
  | callAdapter i =>
    cases allowed
    refine ⟨h, fun r => ?_⟩
    cases h
    simp only [course, guard, Phase.ofOutcome, Deed.isSuccess]
    split_ifs <;> simp_all [Phase.HasGrip]
  | completeAttempt k m =>
    obtain ⟨rfl, rfl⟩ := allowed
    refine ⟨⟨rfl, h⟩, fun r => ?_⟩
    cases r with
    | error => trivial
    | ok => rfl
  | clearAttempt k =>
    obtain ⟨rfl, hs⟩ := allowed
    have holding : g = .holding := by rcases hs with rfl | rfl | rfl <;> exact h
    refine ⟨⟨rfl, holding⟩, fun r => ?_⟩
    cases r with
    | error => trivial
    | ok =>
      simp only [course, guard]
      split_ifs <;> rfl
  | completeJob id w =>
    have free : g = .free := by rcases allowed.2 with rfl | rfl | rfl <;> exact h
    refine ⟨trivial, fun r => ?_⟩
    rcases r with (_ | _) | _
    · simp only [course, guard]
      split_ifs <;> exact free
    · trivial
    · exact free
  | deadLetterJob id w entry reason =>
    obtain ⟨-, rfl⟩ := allowed
    refine ⟨trivial, fun r => ?_⟩
    cases r <;> exact h
  | appendEnvelope x =>
    obtain ⟨-, rfl⟩ := allowed
    refine ⟨trivial, fun r => ?_⟩
    cases r with
    | error => trivial
    | ok => exact h
  | leaseJobs | pruneEnvelopes | pause | pauseForEnvelope | join | sleep => exact allowed.elim
  | _ => exact ⟨trivial, fun _ => h⟩

/-- Processing a job keeps the guard, whatever its calls are answered. -/
theorem Worker.guard_process (cfg : Config) (worker : String) (job : Job) :
    (process cfg worker job).Keeps (guard job.attemptKey) .free := by
  have start : Phase.atGates.HasGrip .free := rfl
  exact Keeps.simulate course_guards (fun _ _ _ _ => trivial) start (course_process cfg worker job)

end Courier
