import Courier.Proofs.Fleet.Calls
import Courier.Proofs.Fleet.Envelopes

/-! What the past of an errand says of its phase, and the other way round. -/

namespace Courier

/-- What an adapter call came back with. -/
def Deed.outcome? : Deed → Option Outcome
  | ⟨.callAdapter i, r⟩ => some (r.toOutcome i.platform)
  | _ => none

theorem Deed.isSuccess_eq (d : Deed) : d.isSuccess = d.outcome?.any Outcome.isSuccess := by
  obtain ⟨a, r⟩ := d
  cases a <;> rfl

/-- A store call on the errand's way that failed where a lost lease cannot be the reason. -/
def Deed.isBroken : Deed → Bool
  | ⟨.beginAttempt _, .error _⟩ => true
  | ⟨.completeAttempt _ _, .error _⟩ => true
  | ⟨.clearAttempt _, .error _⟩ => true
  | ⟨.appendEnvelope _, .error _⟩ => true
  | ⟨.renewLease _ _ _, .error .crash⟩ => true
  | ⟨.completeJob _ _, .error .crash⟩ => true
  | _ => false

/-- How a deed moves the phase of an errand on its course. -/
inductive CourseMove (worker : String) (job : Job) : Phase → Deed → Phase → Prop where
  | kept {s : Phase} {d : Deed} : d.outcome? = none → d.ended? = none → d.sent? = none →
      CourseMove worker job s d s
  | began : CourseMove worker job .atGates ⟨.beginAttempt job.attemptKey, .ok .first⟩ .begun
  | armed {visibility : Span} {t : Timestamp} :
      CourseMove worker job .begun ⟨.renewLease job.id worker visibility, .ok t⟩ .armed
  | called {i : Intent} {r : AdapterReply} :
      CourseMove worker job .armed ⟨.callAdapter i, r⟩ (.ofOutcome (r.toOutcome i.platform))
  | recorded {m : Json} :
      CourseMove worker job .won ⟨.completeAttempt job.attemptKey m, .ok ()⟩ .recorded
  | cleared : CourseMove worker job .failed ⟨.clearAttempt job.attemptKey, .ok ()⟩ .cleared
  | givenUp {s : Phase} : s = .begun ∨ s = .strained →
      CourseMove worker job s ⟨.clearAttempt job.attemptKey, .ok ()⟩ .atGates
  | completed {s : Phase} : s = .atGates ∨ s = .recorded ∨ s = .cleared →
      CourseMove worker job s ⟨.completeJob job.id worker, .ok ()⟩ .owing
  | buried {entry : DlqState} {reason : String} :
      CourseMove worker job .atGates ⟨.deadLetterJob job.id worker entry reason, .ok ()⟩ .owing
  | unacknowledged {x : Error} :
      CourseMove worker job .recorded ⟨.completeJob job.id worker, .error (.error x)⟩ .owing
  | refused {s : Phase} {x : Error} : s = .atGates ∨ s = .cleared →
      CourseMove worker job s ⟨.completeJob job.id worker, .error (.error x)⟩ .refused
  | paid {x : Envelope} {isNew : Bool} : x.jobId = job.id →
      CourseMove worker job .owing ⟨.appendEnvelope x, .ok isNew⟩ .paid
  | broke {s : Phase} {d : Deed} : d.isBroken = true → d.outcome? = none → d.ended? = none →
      CourseMove worker job s d .broken

theorem course_move {worker : String} {job : Job} {s : Phase} {a : Action}
    (h : (course worker job).allows s a) (r : a.Reply) :
    CourseMove worker job s ⟨a, r⟩ ((course worker job).after s ⟨a, r⟩) := by
  cases a with
  | beginAttempt k =>
    obtain ⟨rfl, rfl⟩ := h
    rcases r with _ | (_ | _ | _)
    · exact .broke rfl rfl rfl
    · exact .began
    · exact .kept rfl rfl rfl
    · exact .kept rfl rfl rfl
  | renewLease id w visibility =>
    obtain ⟨⟨rfl, rfl⟩, hs⟩ := h
    rcases r with (_ | _) | t
    · exact .kept rfl rfl rfl
    · exact .broke rfl rfl rfl
    · rcases hs with rfl | rfl | rfl | rfl
      · exact .armed
      · exact .kept rfl rfl rfl
      · exact .kept rfl rfl rfl
      · exact .kept rfl rfl rfl
  | callAdapter i =>
    cases h
    exact .called
  | completeAttempt k m =>
    obtain ⟨rfl, rfl⟩ := h
    cases r with
    | error => exact .broke rfl rfl rfl
    | ok => exact .recorded
  | clearAttempt k =>
    obtain ⟨rfl, hs⟩ := h
    cases r with
    | error => exact .broke rfl rfl rfl
    | ok =>
      rcases hs with rfl | rfl | rfl
      · exact .givenUp (Or.inl rfl)
      · exact .givenUp (Or.inr rfl)
      · exact .cleared
  | completeJob id w =>
    obtain ⟨⟨rfl, rfl⟩, hs⟩ := h
    rcases r with (x | _) | _
    · rcases hs with rfl | rfl | rfl
      · exact .refused (Or.inl rfl)
      · exact .unacknowledged
      · exact .refused (Or.inr rfl)
    · exact .broke rfl rfl rfl
    · exact .completed hs
  | deadLetterJob id w entry reason =>
    obtain ⟨⟨rfl, rfl⟩, rfl⟩ := h
    cases r with
    | error => exact .kept rfl rfl rfl
    | ok => exact .buried
  | appendEnvelope x =>
    obtain ⟨hx, rfl⟩ := h
    cases r with
    | error => exact .broke rfl rfl rfl
    | ok => exact .paid hx
  | _ => exact .kept rfl rfl rfl

namespace Phase

/-- Phases after a success. -/
def Won (s : Phase) : Prop :=
  s = .won ∨ s = .recorded ∨ s = .owing ∨ s = .paid ∨ s = .broken

/-- Phases after the end of the job. -/
def Ended (s : Phase) : Prop := s = .owing ∨ s = .paid ∨ s = .broken

end Phase

namespace CourseMove

variable {worker : String} {job : Job} {s s' : Phase} {d : Deed}

/-- A success is known from then on. -/
theorem won (h : CourseMove worker job s d s') (hs : s.Won ∨ d.isSuccess = true) : s'.Won := by
  rw [Deed.isSuccess_eq] at hs
  cases h with
  | kept ho | broke _ ho => simp_all [Phase.Won]
  | @called i r =>
    rcases hs with hs | hs
    · simp [Phase.Won] at hs
    · rw [Phase.ofOutcome, if_pos (by simpa [Deed.outcome?] using hs)]
      exact Or.inl rfl
  | began | armed | recorded | cleared | buried | unacknowledged | paid =>
    simp_all [Phase.Won, Deed.outcome?]
  | givenUp hp | completed hp | refused hp =>
    rcases hs with hs | hs
    · rcases hp with rfl | rfl | rfl <;> simp [Phase.Won] at hs ⊢
    · simp [Deed.outcome?] at hs

theorem ended (h : CourseMove worker job s d s') (hs : s.Ended ∨ d.ended? = some job.id) :
    s'.Ended := by
  cases h with
  | kept _ he => simpa [he] using hs
  | broke => exact Or.inr (Or.inr rfl)
  | completed | buried | unacknowledged | paid => simp [Phase.Ended]
  | began | armed | called | recorded | cleared => simp [Phase.Ended, Deed.ended?] at hs
  | givenUp hp | refused hp =>
    rcases hs with hs | hs
    · rcases hp with rfl | rfl <;> simp [Phase.Ended] at hs
    · cases hs

theorem earned (h : CourseMove worker job s d s') (hs' : s' = .won ∨ s' = .recorded) :
    (s = .won ∨ s = .recorded) ∨ d.isSuccess = true := by
  rw [Deed.isSuccess_eq]
  cases h with
  | kept => exact Or.inl hs'
  | recorded => exact Or.inl (Or.inl rfl)
  | called =>
    right
    unfold Phase.ofOutcome at hs'
    split_ifs at hs' with ho
    · exact ho
    · simp at hs'
    · simp at hs'
  | _ => simp at hs'

/-- An envelope is due only for the end of the job or for a success. -/
theorem due (h : CourseMove worker job s d s') (hs' : s' = .owing ∨ s' = .paid) :
    (s = .owing ∨ s = .paid) ∨ s = .recorded ∨ d.ended? = some job.id := by
  cases h with
  | kept => exact Or.inl hs'
  | completed | buried => exact Or.inr (Or.inr rfl)
  | unacknowledged => exact Or.inr (Or.inl rfl)
  | paid => exact Or.inl (Or.inl rfl)
  | called =>
    rcases hs' with hs' | hs'
    · exact absurd hs' (Phase.ofOutcome_ne _ (by decide))
    · exact absurd hs' (Phase.ofOutcome_ne _ (by decide))
  | _ => simp at hs'

/-- Only an envelope that is sent pays. -/
theorem paid_cases (h : CourseMove worker job s d .paid) : s = .paid ∨ d.sent? = some true := by
  generalize hs' : Phase.paid = s' at h
  cases h with
  | kept => exact Or.inl rfl
  | paid => exact Or.inr rfl
  | called => exact absurd hs'.symm (Phase.ofOutcome_ne _ (by decide))
  | _ => cases hs'

theorem broken_cases (h : CourseMove worker job s d .broken) :
    s = .broken ∨ d.isBroken = true := by
  generalize hs' : Phase.broken = s' at h
  cases h with
  | kept => exact Or.inl rfl
  | broke hd => exact Or.inr hd
  | called => exact absurd hs'.symm (Phase.ofOutcome_ne _ (by decide))
  | _ => cases hs'

/-- After a final failure the attempt is given up. -/
theorem of_failed (h : CourseMove worker job .failed d s') :
    (s' = .failed ∨ s' = .cleared ∨ s' = .broken) ∧ d.ended? = none := by
  cases h with
  | kept _ he => exact ⟨Or.inl rfl, he⟩
  | cleared => exact ⟨Or.inr (Or.inl rfl), rfl⟩
  | broke _ _ he => exact ⟨Or.inr (Or.inr rfl), he⟩
  | givenUp hp | completed hp | refused hp => simp at hp

/-- Then the job is acknowledged. -/
theorem of_cleared (h : CourseMove worker job .cleared d s') :
    (s' = .cleared ∧ d.ended? = none) ∨ d = ⟨.completeJob job.id worker, .ok ()⟩ ∨
      ((s' = .refused ∨ s' = .broken) ∧ d.ended? = none) := by
  cases h with
  | kept _ he => exact Or.inl ⟨rfl, he⟩
  | completed => exact Or.inr (Or.inl rfl)
  | refused => exact Or.inr (Or.inr ⟨Or.inl rfl, rfl⟩)
  | broke _ _ he => exact Or.inr (Or.inr ⟨Or.inr rfl, he⟩)
  | givenUp hp => simp at hp

/-- Nothing follows on a refusal, nor on the failure of a store. -/
theorem of_lost (h : CourseMove worker job s d s') (hs : s = .refused ∨ s = .broken) :
    (s' = .refused ∨ s' = .broken) ∧ d.ended? = none := by
  cases h with
  | kept _ he => exact ⟨hs, he⟩
  | broke _ _ he => exact ⟨Or.inr rfl, he⟩
  | givenUp hp => rcases hp with rfl | rfl <;> simp at hs
  | completed hp => rcases hp with rfl | rfl | rfl <;> simp at hs
  | refused hp => rcases hp with rfl | rfl <;> simp at hs
  | _ => simp at hs

end CourseMove

/-- What the past of an errand says of its phase. -/
structure Charted (job : Job) (past : List Deed) (s : Phase) : Prop where
  won : (∃ d ∈ past, d.isSuccess = true) → s.Won
  ended : (∃ d ∈ past, d.ended? = some job.id) → s.Ended
  earned : s = .won ∨ s = .recorded → ∃ d ∈ past, d.isSuccess = true
  due : s = .owing ∨ s = .paid →
    (∃ d ∈ past, d.ended? = some job.id) ∨ ∃ d ∈ past, d.isSuccess = true
  paid : s = .paid → ∃ d ∈ past, d.sent? = some true
  broken : s = .broken → ∃ d ∈ past, d.isBroken = true

theorem charted_nil (job : Job) : Charted job [] .atGates := by
  constructor <;> simp

theorem Charted.snoc {worker : String} {job : Job} {past : List Deed} {s s' : Phase} {d : Deed}
    (h : Charted job past s) (move : CourseMove worker job s d s') :
    Charted job (past ++ [d]) s' := by
  refine ⟨?_, ?_, fun hs => ?_, fun hs => ?_, ?_, ?_⟩
  · rw [exists_mem_snoc]
    exact fun hs => move.won (hs.imp_left h.won)
  · rw [exists_mem_snoc]
    exact fun hs => move.ended (hs.imp_left h.ended)
  · rw [exists_mem_snoc]
    exact (move.earned hs).imp_left h.earned
  · rw [exists_mem_snoc, exists_mem_snoc]
    rcases move.due hs with hs | hs | hd
    · exact (h.due hs).imp Or.inl Or.inl
    · exact Or.inr (Or.inl (h.earned (Or.inr hs)))
    · exact Or.inl (Or.inr hd)
  · rintro rfl
    rw [exists_mem_snoc]
    exact move.paid_cases.imp_left h.paid
  · rintro rfl
    rw [exists_mem_snoc]
    exact move.broken_cases.imp_left h.broken

namespace Errand

/-- Where the errand is on its course. -/
def phase (x : Errand) : Phase := (course x.worker x.job).follow .atGates x.past

end Errand

namespace Fleet

variable {e : Engine} {f : Fleet}

/-- Every errand of a run is on its course. -/
theorem Steps.charted (run : Steps (idle e) f) {x : Errand} (hx : x ∈ f.errands) :
    x.stage.plan.Keeps (course x.worker x.job) x.phase ∧ Charted x.job x.past x.phase ∧
      x.phase.HasGrip x.grip ∧ x.phase.HasDuty x.duty := by
  refine Steps.errand_induction (P := fun worker job past p =>
    p.Keeps (course worker job) ((course worker job).follow .atGates past) ∧
      Charted job past ((course worker job).follow .atGates past) ∧
      Phase.HasGrip ((course worker job).follow .atGates past)
        ((guard job.attemptKey).follow .free past) ∧
      Phase.HasDuty ((course worker job).follow .atGates past)
        ((settlement job.id).follow .nothing past)) ?_ ?_ run hx
  · exact fun cfg worker job => ⟨Worker.course_process cfg worker job, charted_nil job, rfl, rfl⟩
  · rintro worker job past a next r ⟨keeps, charted, grip, duty⟩
    rw [Rule.follow_snoc, Rule.follow_snoc, Rule.follow_snoc]
    exact ⟨keeps.2 r, charted.snoc (course_move keeps.1 r), (course_guards _ _ a grip keeps.1).2 r,
      (course_settles _ _ a duty keeps.1).2 r⟩

/-- What an answered turn makes of the phase. -/
theorem Steps.phaseMove (run : Steps (idle e) f) {x x' : Errand} (hx : x ∈ f.errands)
    {e' : Engine} {a : Action} {r : a.Reply} (h : x.Answered f.engine e' x' a r)
    (hw : x'.worker = x.worker) (hj : x'.job = x.job) :
    (course x.worker x.job).allows x.phase a ∧
      CourseMove x.worker x.job x.phase ⟨a, r⟩ x'.phase := by
  have allowed := h.allowed (run.charted hx).1
  have after : x'.phase = (course x.worker x.job).after x.phase ⟨a, r⟩ := by
    rw [Errand.phase, hw, hj, h.past, Rule.follow_snoc]
    rfl
  rw [after]
  exact ⟨allowed, course_move allowed r⟩

end Fleet

end Courier
