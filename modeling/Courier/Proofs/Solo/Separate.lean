import Courier.Proofs.AttemptLog
import Courier.Proofs.Engine.Steady
import Courier.Proofs.Isolation
import Courier.Proofs.Key
import Courier.Proofs.Solo.Passage

/-! Two jobs keep out of each other's way as far as their keys differ. Whatever happens to one of
them, its worker touches no entry in the log of attempts but that of its own key, and no circuit, no
window and no pacing but those of its own route. -/

namespace Courier

open Plan

/-- Then `still` holds from where the plan starts to where it has got to. -/
theorem Plan.Apart.still {α : Type} {still : Engine → Engine → Prop} {P : Action → Prop}
    {p q : Plan α} {e e₁ : Engine} {past : List Deed} (apart : Apart still p e past e₁ q)
    (uses : p.Uses P) (trans : ∀ {a b c}, still a b → still b c → still a c)
    (spares : ∀ {a e r e'}, P a → e.Answers a r e' → still e e') : still e e₁ := by
  induction apart with
  | start others => exact others
  | act before answers others ih =>
    exact trans (trans ih (spares (before.uses uses).1 answers)) others

namespace Engine

/-- The circuits, the pacing and the rate limit. -/
def gates (e : Engine) : Gates Float := ⟨e.breaker, e.pacing, e.limiter⟩

/-- The log of attempts has the same to say of `key`. -/
def SameAttempt (key : String) (e e' : Engine) : Prop := e'.attempts.get? key = e.attempts.get? key

/-- The gates hold the same for `route`. -/
def SameRoute (route : String) (e e' : Engine) : Prop := e'.gates.view route = e.gates.view route

theorem attempts_of_call {γ : Type} {c : StoreCall} {x : Error} {e e' : Engine}
    {r : Except Failure γ} {key : String} (f : Engine → γ × AttemptLog)
    (runs : ∀ e, ∃ (staleAfter : Span) (act : AttemptLog.Act),
      act.key = key ∧ (f e).2 = act.run staleAfter e.attempts)
    (h : e.call c (.error x) (fun e => (.ok (f e).1, { e with attempts := (f e).2 })) = (r, e')) :
    e'.attempts = e.attempts ∨ ∃ (staleAfter : Span) (act : AttemptLog.Act),
      act.key = key ∧ e'.attempts = act.run staleAfter e.attempts := by
  rcases onAttempts_cases f h with ⟨same, -⟩ | ⟨e₁, same, -, after⟩
  · exact Or.inl same
  · obtain ⟨staleAfter, act, own, ran⟩ := runs e₁
    exact Or.inr ⟨staleAfter, act, own, by rw [after, ran, same]⟩

namespace Answers

variable {e e' : Engine} {a : Action} {r : a.Reply} {worker : String} {j : Job}

/-- A worker changes the log of attempts by a call for the key of its job, if at all. -/
theorem attempts_of_serves (h : e.Answers a r e') (serves : a.Serves worker j) :
    e'.attempts = e.attempts ∨ ∃ (staleAfter : Span) (act : AttemptLog.Act),
      act.key = j.attemptKey ∧ e'.attempts = act.run staleAfter e.attempts := by
  have kept := h.kept.attempts
  cases a with
  | beginAttempt key =>
    refine attempts_of_call
      (fun e => AttemptLog.begin e.config.attempts.staleAfter key e.now e.attempts)
      (fun e => ?_) (reply_inj (h.performed rfl))
    exact ⟨e.config.attempts.staleAfter, ⟨key, e.now, .begin⟩, serves, rfl⟩
  | completeAttempt key metadata =>
    refine attempts_of_call
      (fun e => ((), AttemptLog.complete key metadata e.now e.attempts))
      (fun e => ?_) (reply_inj (h.performed rfl))
    exact ⟨.zero, ⟨key, e.now, .complete metadata⟩, serves, rfl⟩
  | clearAttempt key =>
    refine attempts_of_call (fun e => ((), AttemptLog.clear key e.attempts))
      (fun e => ?_) (reply_inj (h.performed rfl))
    exact ⟨.zero, ⟨key, e.now, .clear⟩, serves, rfl⟩
  | _ => exact Or.inl (kept nofun)

/-- So the entries of all other keys stay. -/
theorem sameAttempt (h : e.Answers a r e') (serves : a.Serves worker j) {key : String}
    (other : key ≠ j.attemptKey) : SameAttempt key e e' := by
  rcases h.attempts_of_serves serves with same | ⟨staleAfter, act, own, ran⟩
  · rw [SameAttempt, same]
  · rw [SameAttempt, ran, AttemptLog.get?_run, own, if_neg other]

/-- A worker changes the gates by an operation on the route of its job, if at all. -/
theorem gates_of_serves (h : e.Answers a r e') (serves : a.Serves worker j) :
    e'.gates = e.gates ∨ ∃ (cfg : GatesConfig Float) (now : Timestamp) (op : Gates.RouteOp),
      e'.gates = (op.run cfg now j.routeKey e.gates).2 := by
  rcases h with ⟨-, rfl⟩ | ⟨own, done⟩
  · exact Or.inl rfl
  let cfg : GatesConfig Float := ⟨e.config.circuit, e.config.pacing, e.config.rateLimit⟩
  have apart (s : Steady e e') (g : SameGates e e') : e'.gates = e.gates := by
    rw [gates, gates, s.pacing, g.breaker, g.limiter]
  cases a with
  | drawUnit | materialize | callAdapter => cases own
  | requestPassage => cases done; cases serves; exact Or.inr ⟨cfg, e.now, .request, rfl⟩
  | cancelTrial => cases done; cases serves; exact Or.inr ⟨cfg, e.now, .cancelTrial, rfl⟩
  | circuitSuccess => cases done; cases serves; exact Or.inr ⟨cfg, e.now, .success, rfl⟩
  | circuitFailure => cases done; cases serves; exact Or.inr ⟨cfg, e.now, .failure, rfl⟩
  | requestRoom _ now => cases done; cases serves; exact Or.inr ⟨cfg, now, .room, rfl⟩
  | refundRoom _ taken => cases done; cases serves; exact Or.inr ⟨cfg, e.now, .refund taken, rfl⟩
  | pacingSend _ now => cases done; cases serves; exact Or.inr ⟨cfg, now, .recordSend, rfl⟩
  | pacingSuccess => cases done; cases serves; exact Or.inr ⟨cfg, e.now, .recordSuccess, rfl⟩
  | pacingFailure _ o => cases done; cases serves; exact Or.inr ⟨cfg, e.now, .recordFailure o, rfl⟩
  | renewLease | completeJob | releaseJob | deadLetterJob =>
    cases done
    exact Or.inl (apart (call_steady (fun e => onQueue_steady _ e) e)
      (call_sameGates (fun e => onQueue_sameGates _ e) e))
  | beginAttempt | completeAttempt | clearAttempt | appendEnvelope =>
    cases done
    exact Or.inl (apart (call_steady (fun e => ⟨rfl, rfl, rfl, rfl⟩) e)
      (call_sameGates (fun e => ⟨rfl, rfl, rfl⟩) e))
  | readClock | pacingWait | emit | wakeDispatcher =>
    cases done
    exact Or.inl rfl
  | _ => exact serves.elim

/-- So all other routes find the gates as they were. -/
theorem sameRoute (h : e.Answers a r e') (serves : a.Serves worker j) {route : String}
    (other : route ≠ j.routeKey) : SameRoute route e e' := by
  rcases h.gates_of_serves serves with same | ⟨cfg, now, op, operated⟩
  · rw [SameRoute, same]
  · rw [SameRoute, operated, op.view_of_ne other]

end Answers

end Engine

namespace Worker

/-- The keys of two jobs are the same text only for one intent under one id, and their routes only
for one platform and target, or where a colon in a platform can be taken for the one before the
target. Where they differ, whatever the worker of the one job does, and whatever else goes on
beside it, the other job's attempt and the gates of its route are left as they are. -/
theorem process_keeps_apart (cfg : Config) (worker : String) (j k : Job) :
    (j.attemptKey = k.attemptKey ↔ j.intentId = k.intentId ∧ j.id = k.id) ∧
      (j.routeKey = k.routeKey ↔
        (j.intent.platform = k.intent.platform ∧ j.intent.target = k.intent.target) ∨
          j.intent.Overlaps k.intent ∨ k.intent.Overlaps j.intent) ∧
      (':' ∉ j.intent.platform.toList → ':' ∉ k.intent.platform.toList →
        j.routeKey = k.routeKey →
          j.intent.platform = k.intent.platform ∧ j.intent.target = k.intent.target) ∧
      ∀ {e e' : Engine} {past : List Deed} {q : Attempt Disposition},
        (¬ (j.intentId = k.intentId ∧ j.id = k.id) →
          Apart (Engine.SameAttempt k.attemptKey) (process cfg worker j) e past e' q →
            Engine.SameAttempt k.attemptKey e e') ∧
        (k.routeKey ≠ j.routeKey →
          Apart (Engine.SameRoute k.routeKey) (process cfg worker j) e past e' q →
            Engine.SameRoute k.routeKey e e') := by
  refine ⟨Job.attemptKey_eq_iff, Intent.routeKey_eq_iff, Intent.routeKey_inj, ?_⟩
  intro e e' past q
  constructor
  · intro differ apart
    have other : k.attemptKey ≠ j.attemptKey := fun same => differ (Job.attemptKey_inj same.symm)
    exact apart.still (serves_process cfg worker j) (fun h h' => h'.trans h)
      fun serves answers => answers.sameAttempt serves other
  · intro other apart
    exact apart.still (serves_process cfg worker j) (fun h h' => h'.trans h)
      fun serves answers => answers.sameRoute serves other

/-- A platform with a colon in its name. -/
def nestedJob : Job := .create ⟨.ofNat 1⟩ ⟨"post-1", "x:a", "b", "post", .null, none⟩ .epoch

/-- A target with a colon in its name. -/
def plainJob : Job := .create ⟨.ofNat 2⟩ ⟨"post-2", "x", "a:b", "post", .null, none⟩ .epoch

/-- A job for another target of that platform. -/
def asideJob : Job := .create ⟨.ofNat 3⟩ ⟨"post-3", "x", "c", "post", .null, none⟩ .epoch

/-- All of them are leased to one worker, one after the other, and one failure opens a circuit. -/
def nestedEngine : Engine :=
  { Engine.create brittleConfig .epoch .quiet with
    queue := [nestedJob, plainJob, asideJob].foldl
      (fun q j =>
        (((Queue.Call.enqueue j).after .epoch q).lease "w-1" 1 (.ofMillis 30000) .epoch).2)
      Queue.empty }

/-- The failure of one job opens the circuit of its route and leaves that of another alone. -/
theorem process_keeps_apart_asideJob : ∃ past e' r,
    carry? (outside (.outcome (.environment "down"))) 20 nestedEngine
        (process brittleConfig "w-1" nestedJob) = some (past, e', r) ∧
      e'.breaker.state nestedJob.routeKey = .tripped ∧
      Engine.SameAttempt asideJob.attemptKey nestedEngine e' ∧
      Engine.SameRoute asideJob.routeKey nestedEngine e' := by
  have opened : ((carry? (outside (.outcome (.environment "down"))) 20 nestedEngine
      (process brittleConfig "w-1" nestedJob)).any fun c =>
        decide (c.2.1.breaker.state nestedJob.routeKey = .tripped)) = true := by decide +kernel
  obtain ⟨⟨past, e', r⟩, carried, opened⟩ := (Option.any_eq_true _ _).1 opened
  obtain ⟨-, -, -, apart⟩ := process_keeps_apart brittleConfig "w-1" nestedJob asideJob
  let plan := process brittleConfig "w-1" nestedJob
  have attempt : Apart (Engine.SameAttempt asideJob.attemptKey) plan nestedEngine [] nestedEngine
    plan := .start rfl
  have route : Apart (Engine.SameRoute asideJob.routeKey) plan nestedEngine [] nestedEngine plan :=
    .start rfl
  refine ⟨past, e', r, carried, of_decide_eq_true opened, ?_, ?_⟩
  · exact apart.1 (by decide) (attempt.of_carry? (fun _ => rfl) carried)
  · exact apart.2 (by decide) (route.of_carry? (fun _ => rfl) carried)

/-- Two jobs for different platforms and targets meet on one route: the failure of the one keeps the
other out. -/
theorem exists_route_shared :
    (nestedJob.routeKey = plainJob.routeKey ∧
      nestedJob.intent.platform ≠ plainJob.intent.platform ∧
      nestedJob.intent.target ≠ plainJob.intent.target) ∧
    ∃ past e' r, carry? (outside (.outcome (.environment "down"))) 20 nestedEngine
        (process brittleConfig "w-1" nestedJob) = some (past, e', r) ∧
      ((carry? (outside (.outcome .success)) 20 e' (process brittleConfig "w-1" plainJob)).map
        fun c => c.2.2.toOption) = some (some (.deferred .circuitOpen)) := by
  refine ⟨by decide, ?_⟩
  have denied : ((carry? (outside (.outcome (.environment "down"))) 20 nestedEngine
      (process brittleConfig "w-1" nestedJob)).any fun c =>
        decide (((carry? (outside (.outcome .success)) 20 c.2.1
          (process brittleConfig "w-1" plainJob)).map fun c => c.2.2.toOption) =
            some (some (.deferred .circuitOpen)))) = true := by decide +kernel
  obtain ⟨⟨past, e', r⟩, carried, denied⟩ := (Option.any_eq_true _ _).1 denied
  exact ⟨past, e', r, carried, of_decide_eq_true denied⟩

end Worker

end Courier
