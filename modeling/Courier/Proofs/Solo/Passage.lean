import Courier.Proofs.Breaker.Trial
import Courier.Proofs.Solo.Gates
import Courier.Proofs.Solo.Process

/-! The trial of a route on which nobody else reports. However a worker comes out of its job, the
trial on which it was admitted does not stay behind: it has reported on the route or given the trial
back, and either frees the slot. -/

namespace Courier

open Plan

namespace Circuit

/-- The circuit waits for somebody on trial. -/
def IsTrying (c : Circuit) : Prop := c.state = .halfOpen ∧ c.trialStartedAt.isSome = true

instance (c : Circuit) : Decidable c.IsTrying := inferInstanceAs (Decidable (_ ∧ _))

/-- No circuit does after a report, of whatever kind. -/
theorem not_isTrying_report (cfg : CircuitConfig) (now : Timestamp) (c : Circuit) {call : Call}
    (hc : call ≠ .request) : ¬ (call.run cfg now c).2.IsTrying := by
  rintro ⟨halfOpen, slot⟩
  by_cases tripped : c.state = .tripped
  · rw [report_of_tripped tripped hc, tripped] at halfOpen
    cases halfOpen
  · rcases report_cases cfg now tripped hc with (shut | ⟨-, free⟩) | ⟨-, again, -⟩
    · rw [shut] at halfOpen
      cases halfOpen
    · rw [free] at slot
      cases slot
    · rw [again] at halfOpen
      cases halfOpen

end Circuit

namespace Engine

variable {e e' : Engine} {route : String}

/-- Nobody has used or changed the circuit of the route. -/
def SameCircuit (route : String) (e e' : Engine) : Prop :=
  e'.breaker.circuit route = e.breaker.circuit route

theorem SameGates.sameCircuit (h : SameGates e e') (route : String) : SameCircuit route e e' := by
  rw [SameCircuit, h.breaker]

/-- What an action reports to the circuit of its route. -/
def report? : Action → Option (String × Circuit.Call)
  | .cancelTrial r => some (r, .cancelTrial)
  | .circuitSuccess r => some (r, .success)
  | .circuitFailure r => some (r, .failure)
  | _ => none

theorem Answers.reported {a : Action} {r : a.Reply} {call : Circuit.Call} (h : e.Answers a r e')
    (reports : report? a = some (route, call)) : ¬ (e'.breaker.circuit route).IsTrying := by
  have done : call ≠ .request ∧ e'.breaker.circuit route =
      (call.run e.config.circuit e.now (e.breaker.circuit route)).2 := by
    cases a with
    | cancelTrial =>
      cases reports
      cases h.performed rfl
      exact ⟨nofun, (Breaker.circuit_cancelTrial _ _ _).trans (if_pos rfl)⟩
    | circuitSuccess =>
      cases reports
      cases h.performed rfl
      exact ⟨nofun, (Breaker.circuit_apply (fun c => c.success _ e.now) _ _ _ _).trans (if_pos rfl)⟩
    | circuitFailure =>
      cases reports
      cases h.performed rfl
      exact ⟨nofun, (Breaker.circuit_apply (fun c => c.failure _ e.now) _ _ _ _).trans (if_pos rfl)⟩
    | _ => cases reports
  rw [done.2]
  exact Circuit.not_isTrying_report _ _ _ done.1

end Engine

/-- The circuit of the route admits on trial. -/
def Deed.trial (route : String) : Deed := ⟨.requestPassage route, .onTrial⟩

def Deed.isTrial (route : String) : Deed → Bool
  | ⟨.requestPassage r, p⟩ => r = route && p = .onTrial
  | _ => false

theorem Deed.trial_mem {route : String} {past : List Deed}
    (h : past.any (isTrial route) = true) : trial route ∈ past := by
  obtain ⟨⟨a, r⟩, mem, same⟩ := List.any_eq_true.1 h
  cases a with
  | requestPassage =>
    simp only [isTrial, Bool.and_eq_true, decide_eq_true_eq] at same
    obtain ⟨rfl, rfl⟩ := same
    exact mem
  | _ => cases same

/-- What the circuit of the route looks like to a worker with such a hold on it. -/
def TrialHold.Fits (route : String) (past : List Deed) (e : Engine) : TrialHold → Prop
  | unasked => .trial route ∉ past
  | held => True
  | settled => .trial route ∈ past → ¬ (e.breaker.circuit route).IsTrying

namespace TrialHold.Fits

variable {route : String} {past : List Deed} {e e' : Engine} {t : TrialHold} {d : Deed}

theorem others (h : t.Fits route past e) (same : e.SameCircuit route e') :
    t.Fits route past e' := by
  cases t with
  | unasked => exact h
  | held => trivial
  | settled => exact fun mem => same.symm ▸ h mem

theorem elsewhere (h : t.Fits route past e) (other : d ≠ .trial route)
    (same : e.SameCircuit route e') : t.Fits route (past ++ [d]) e' := by
  have before : .trial route ∈ past ++ [d] → .trial route ∈ past := fun mem =>
    (List.mem_append.1 mem).resolve_right fun last => other (List.mem_singleton.1 last).symm
  cases t with
  | unasked => exact fun mem => h (before mem)
  | held => trivial
  | settled => exact fun mem => same.symm ▸ h (before mem)

/-- The answer of the circuit says whether there is a trial to give back. -/
theorem asked {p : Passage} (h : unasked.Fits route past e) :
    (of p).Fits route (past ++ [⟨.requestPassage route, p⟩]) e' := by
  unfold of
  split_ifs with trial
  · trivial
  · intro mem
    rcases List.mem_append.1 mem with mem | mem
    · exact absurd mem h
    · cases List.mem_singleton.1 mem
      exact absurd rfl trial

end TrialHold.Fits

/-- The hold of a worker tells of the circuit as long as nobody else uses it. -/
theorem accounted_trial (route : String) : Accounted (Engine.SameCircuit route) (gates route)
    fun s past e => s.trial.Fits route past e where
  still fits same := fits.others same
  act {s past e e' a r} fits allowed answers := by
    -- a plain action has no part in the circuit
    have plain : a.isPlain = true → Deed.mk a r ≠ .trial route := by
      rintro plain ⟨⟩
      cases plain
    cases a with
    | requestPassage r =>
      obtain ⟨rfl, unasked⟩ := allowed
      rw [unasked] at fits
      exact fits.asked
    | cancelTrial | circuitSuccess | circuitFailure =>
      obtain rfl := allowed
      exact fun _ => answers.reported rfl
    | requestRoom | refundRoom =>
      cases answers.performed rfl
      exact fits.elsewhere nofun rfl
    | callAdapter =>
      obtain ⟨-, rfl⟩ | ⟨own, -⟩ := answers
      · exact fits.elsewhere nofun rfl
      · cases own
    | _ => exact fits.elsewhere (plain allowed) ((answers.sameGates allowed).sameCircuit route)

namespace Worker

variable {cfg : Config} {worker : String} {j : Job} {e e' : Engine} {past : List Deed}
  {q : Attempt Disposition}

/-- A worker that is admitted on trial leaves no trial behind when it has done with its job,
whatever its calls are answered and whatever else goes on, as long as nobody else uses the circuit
of the route. And it comes to an end with the job from wherever it has got to. -/
theorem process_frees_trial
    (apart : Apart (Engine.SameCircuit j.routeKey) (process cfg worker j) e past e' q) :
    (∃ more e'' r, Apart (Engine.SameCircuit j.routeKey) (process cfg worker j) e (past ++ more) e''
        (.done r)) ∧
      ∀ r, q = .done r → .trial j.routeKey ∈ past →
        ¬ (e'.breaker.circuit j.routeKey).IsTrying := by
  refine ⟨apart.completes (fun _ => rfl) (apart.uses (serves_process cfg worker j)), ?_⟩
  rintro r rfl admitted
  have start : (Hold.mk .unasked .unasked).trial.Fits j.routeKey [] e := List.not_mem_nil
  obtain ⟨⟨trial, room⟩, fits, free, -⟩ :=
    (accounted_trial j.routeKey).apart start (gates_process cfg worker j) apart
  cases trial with
  | unasked => exact absurd admitted fits
  | held => exact absurd rfl free
  | settled => exact fits admitted

/-- One failure opens a circuit. -/
def brittleConfig : Config := { Config.usual with circuit := { failureThreshold := 1 } }

/-- The route of the job was opened and has cooled down. The log of attempts is going to fail when
the success is to be written down. -/
def cooledEngine : Engine :=
  { Engine.create brittleConfig .epoch (Surroundings.quiet.setFaults .completeAttempt [.fail]) with
    queue := lentQueue
    breaker := Breaker.failure brittleConfig.circuit lentJob.routeKey .epoch .empty
    sleptMs := 60000 }

/-- The worker gets out by an error after its trial succeeded, and the slot is free. -/
theorem process_frees_trial_unwritten : ∃ past e' x,
    carry? (outside (.outcome .success)) 20 cooledEngine (process brittleConfig "w-1" lentJob) =
        some (past, e', .error x) ∧
      .trial lentJob.routeKey ∈ past ∧ ¬ (e'.breaker.circuit lentJob.routeKey).IsTrying := by
  have failed : ((carry? (outside (.outcome .success)) 20 cooledEngine
      (process brittleConfig "w-1" lentJob)).any
        fun c => !c.2.2.toBool && c.1.any (Deed.isTrial lentJob.routeKey)) = true := by
    decide +kernel
  obtain ⟨⟨past, e', r⟩, carried, failed⟩ := (Option.any_eq_true _ _).1 failed
  obtain ⟨failed, tried⟩ := Bool.and_eq_true_iff.1 failed
  have admitted := Deed.trial_mem tried
  have start : Apart (Engine.SameCircuit lentJob.routeKey) (process brittleConfig "w-1" lentJob)
      cooledEngine [] cooledEngine (process brittleConfig "w-1" lentJob) := .start rfl
  have free := (process_frees_trial (start.of_carry? (fun _ => rfl) carried)).2 _ rfl admitted
  cases r with
  | error x => exact ⟨past, e', x, carried, admitted, free⟩
  | ok _ => cases failed

end Worker

end Courier
