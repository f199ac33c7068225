import Courier.Proofs.Solo.Apart

/-! What a worker holds of the gates of a route while it takes a job through them, a trial of the
circuit and room under the rate limit, and that it comes away with neither: whatever its calls are
answered, a trial ends in a report or is given back, and room is used for a call or given back. -/

namespace Courier

open Plan

/-- Actions that the circuit and the rate limit take no notice of, and that call nobody outside. -/
def Action.isPlain : Action → Bool
  | .readClock | .drawUnit | .materialize _ | .emit _ | .wakeDispatcher
  | .pacingWait _ _ _ | .pacingSend _ _ | .pacingSuccess _ | .pacingFailure _ _
  | .renewLease _ _ _ | .completeJob _ _ | .releaseJob _ _ _ _ _ | .deadLetterJob _ _ _ _
  | .beginAttempt _ | .completeAttempt _ _ | .clearAttempt _ | .appendEnvelope _ => true
  | _ => false

/-- A worker's part in the circuit of its route. -/
inductive TrialHold where
  | unasked
  | held
  /-- It was not admitted on trial, or has reported, or has given the trial back. -/
  | settled

/-- What is held of a circuit after its answer. -/
def TrialHold.of (p : Passage) : TrialHold := if p = .onTrial then .held else .settled

/-- A worker's part in the rate limit. The times are those that it asked with. -/
inductive RoomHold where
  | unasked
  | held (t : Timestamp)
  /-- The adapter was called on it. -/
  | spent (t : Timestamp)
  /-- There was none, or it was given back. -/
  | settled (t : Timestamp)

namespace RoomHold

def isHeld : RoomHold → Bool
  | held _ => true
  | _ => false

/-- What is held of the rate limit after its answer. -/
def of (t : Timestamp) (d : RateDecision) : RoomHold := if d.allowed then held t else settled t

/-- After the adapter was called. -/
def called : RoomHold → RoomHold
  | held t => spent t
  | h => h

end RoomHold

structure Hold where
  trial : TrialHold
  room : RoomHold

/-- Each gate is asked once at most, and so is the adapter, only on room that is held. A plan may
not end with a trial or with unused room in its hands. -/
def gates (route : String) : Rule Hold where
  allows s
    | .requestPassage r => r = route ∧ s.trial = .unasked
    | .cancelTrial r | .circuitSuccess r | .circuitFailure r => r = route
    | .requestRoom r _ => r = route ∧ s.room = .unasked
    | .refundRoom r t => r = route ∧ s.room = .held t
    | .callAdapter _ => ∃ t, s.room = .held t
    | a => a.isPlain = true
  after s
    | ⟨.requestPassage _, p⟩ => { s with trial := .of p }
    | ⟨.cancelTrial _, _⟩ | ⟨.circuitSuccess _, _⟩ | ⟨.circuitFailure _, _⟩ =>
      { s with trial := .settled }
    | ⟨.requestRoom _ t, d⟩ => { s with room := .of t d }
    | ⟨.refundRoom _ t, _⟩ => { s with room := .settled t }
    | ⟨.callAdapter _, _⟩ => { s with room := s.room.called }
    | _ => s
  ends s := s.trial ≠ .held ∧ s.room.isHeld = false

namespace Engine

variable {e e' : Engine}

/-- The settings, the circuits and the rate limit are as before. -/
structure SameGates (e e' : Engine) : Prop where
  config : e'.config = e.config
  breaker : e'.breaker = e.breaker
  limiter : e'.limiter = e.limiter

theorem call_sameGates {γ : Type} {c : StoreCall} {offline : Except Error γ}
    {body : Engine → Except Error γ × Engine} (h : ∀ e, SameGates e (body e).2) (e : Engine) :
    SameGates e (e.call c offline body).2 := by
  unfold call
  split_ifs
  · exact ⟨rfl, rfl, rfl⟩
  · generalize e.surroundings.takeFault c = t
    obtain ⟨fault, s⟩ := t
    have on := h { e with surroundings := s }
    cases fault with
    | none => exact ⟨on.config, on.breaker, on.limiter⟩
    | fail | lost | crash => exact ⟨rfl, rfl, rfl⟩

theorem onQueue_sameGates {γ : Type} (f : Queue → Except Error (γ × Queue)) (e : Engine) :
    SameGates e (e.onQueue f).2 := by
  unfold onQueue
  split <;> exact ⟨rfl, rfl, rfl⟩

/-- Plain actions leave the gates alone, whether the stores take part or not. -/
theorem Answers.sameGates {a : Action} {r : a.Reply} (h : e.Answers a r e')
    (plain : a.isPlain = true) : SameGates e e' := by
  rcases h with ⟨-, rfl⟩ | ⟨own, done⟩
  · exact ⟨rfl, rfl, rfl⟩
  cases a with
  | drawUnit | materialize => cases own
  | renewLease | completeJob | releaseJob | deadLetterJob =>
    cases done
    exact call_sameGates (fun e => onQueue_sameGates _ e) e
  | beginAttempt | completeAttempt | clearAttempt | appendEnvelope =>
    cases done
    exact call_sameGates (fun e => ⟨rfl, rfl, rfl⟩) e
  | _ =>
    first
      | cases plain; done
      | cases done
        exact ⟨rfl, rfl, rfl⟩

end Engine

namespace Worker

variable {α : Type} {cfg : Config} {worker : String} {job : Job} {route : String} {p : Passage}
  {held : Holdings} {s : Hold} {t : Timestamp}

theorem plain_fail (e : Failure) :
    (fail e : Attempt α).Uses (fun a => a.isPlain = true) := trivial

theorem plain_defer (reason : Deferral) (t : Timestamp) :
    (defer worker job reason t).Uses (fun a => a.isPlain = true) := by
  refine ⟨rfl, fun r => ?_⟩
  cases r with
  | error e => exact plain_fail e
  | ok => exact ⟨rfl, fun _ => trivial⟩

theorem plain_publish (o : Outcome) (d : Disposition) :
    (publish job o d).Uses (fun a => a.isPlain = true) := by
  refine ⟨rfl, fun now => ⟨rfl, fun r => ?_⟩⟩
  rcases r with e | (_ | _)
  · exact plain_fail e
  · exact ⟨rfl, fun _ => trivial⟩
  · exact ⟨rfl, fun _ => ⟨rfl, fun _ => trivial⟩⟩

theorem plain_deadLetter (reason : String) (o : Outcome) :
    (deadLetter worker job reason o).Uses (fun a => a.isPlain = true) := by
  refine ⟨rfl, fun r => ?_⟩
  cases r with
  | error e => exact plain_fail e
  | ok => exact ⟨rfl, fun _ => plain_publish o _⟩

theorem plain_acknowledge (o : Outcome) (d : Disposition) :
    (.step (.completeJob job.id worker) fun
      | .error e => fail e
      | .ok _ => publish job o d : Attempt Disposition).Uses (fun a => a.isPlain = true) := by
  refine ⟨rfl, fun r => ?_⟩
  cases r with
  | error e => exact plain_fail e
  | ok => exact plain_publish o d

/-- A plan that has done with the gates may be followed wherever nothing is held. -/
theorem gates_of_plain {k : Plan α} (h : k.Uses (fun a => a.isPlain = true))
    (ends : (gates route).ends s) : k.Keeps (gates route) s := by
  refine h.stays (fun a plain => ?_) ends
  cases a <;> first | cases plain; done | exact ⟨rfl, fun _ => rfl⟩

/-- Where the trial is over and no room is held, a plan may end. -/
theorem ends_settled {room : RoomHold} (h : room.isHeld = false) :
    (gates route).ends ⟨.settled, room⟩ := ⟨nofun, h⟩

theorem gates_returnPassage {room : RoomHold} {k : Plan α}
    (h : k.Keeps (gates route) ⟨.settled, room⟩) :
    (returnPassage route p k).Keeps (gates route) ⟨.of p, room⟩ := by
  unfold returnPassage TrialHold.of
  split_ifs
  · exact ⟨rfl, fun _ => h⟩
  · exact h

theorem gates_returnAll {k : Plan α} (h : k.Uses (fun a => a.isPlain = true)) :
    (returnAll held k).Keeps (gates held.route) ⟨.of held.passage, .held held.taken⟩ := by
  refine ⟨⟨rfl, rfl⟩, fun _ => ?_⟩
  have settled : k.Keeps (gates held.route) ⟨.settled, .settled held.taken⟩ :=
    gates_of_plain h (ends_settled rfl)
  exact gates_returnPassage settled

theorem gates_handBack {k : Plan α} (h : k.Uses (fun a => a.isPlain = true)) :
    (handBack held k).Keeps (gates held.route) ⟨.of held.passage, .held held.taken⟩ := by
  have settled : k.Keeps (gates held.route) ⟨.settled, .settled held.taken⟩ :=
    gates_of_plain h (ends_settled rfl)
  exact gates_returnPassage ⟨⟨rfl, rfl⟩, fun _ => settled⟩

/-- Which of the two is given back first is seen only by those that come in between. -/
theorem run_handBack (held : Holdings) (k : Plan α) (s : Schedule) :
    s.run (handBack held k) = s.run (returnAll held k) := by
  unfold handBack returnAll returnPassage
  split_ifs
  · rfl
  · rfl

theorem gates_onSuccess (o : Outcome) :
    (onSuccess worker job route o).Keeps (gates route) ⟨.of p, .spent t⟩ := by
  refine ⟨rfl, fun _ => gates_of_plain ⟨rfl, fun _ => ⟨rfl, fun r => ?_⟩⟩ (ends_settled rfl)⟩
  cases r with
  | error e => exact plain_fail e
  | ok =>
    refine ⟨rfl, fun r => ?_⟩
    rcases r with (_ | _) | _
    · exact plain_publish o _
    · exact plain_fail _
    · exact plain_publish o _

theorem gates_onEnvironmentFailure (o : Outcome) :
    (onEnvironmentFailure cfg worker job route o).Keeps (gates route) ⟨.of p, .spent t⟩ := by
  refine ⟨rfl, fun _ => gates_of_plain ⟨rfl, fun _ => ⟨rfl, fun r => ?_⟩⟩ (ends_settled rfl)⟩
  cases r with
  | error e => exact plain_fail e
  | ok =>
    dsimp only
    split_ifs
    · refine ⟨rfl, fun _ => ⟨rfl, fun _ => ⟨rfl, fun r => ?_⟩⟩⟩
      cases r with
      | error e => exact plain_fail e
      | ok => exact ⟨rfl, fun _ => trivial⟩
    · exact plain_deadLetter _ o

theorem gates_onFinalFailure (o : Outcome) :
    (onFinalFailure worker job route p o).Keeps (gates route) ⟨.of p, .spent t⟩ := by
  refine gates_returnPassage (gates_of_plain ⟨rfl, fun r => ?_⟩ (ends_settled rfl))
  cases r with
  | error e => exact plain_fail e
  | ok => exact plain_acknowledge o _

/-- After the call every outcome is a report, or the trial is given back. -/
theorem gates_settle (o : Outcome) :
    (settle cfg worker job route p o).Keeps (gates route) ⟨.of p, .spent t⟩ := by
  unfold settle
  split_ifs
  · exact gates_onSuccess o
  · exact gates_onEnvironmentFailure o
  · exact gates_onFinalFailure o

theorem gates_carryOut (held : Holdings) :
    (carryOut cfg worker job held).Keeps (gates held.route)
      ⟨.of held.passage, .held held.taken⟩ := by
  refine ⟨rfl, fun content => ?_⟩
  dsimp only
  cases content.apply job.intent with
  | none => exact gates_returnAll (plain_fail _)
  | some intent =>
    refine ⟨rfl, fun r => ?_⟩
    rcases r with (_ | _) | _
    · refine gates_handBack ⟨rfl, fun r => ?_⟩
      cases r with
      | error e => exact plain_fail e
      | ok => trivial
    · exact gates_returnAll (plain_fail _)
    · refine ⟨rfl, fun sent => ⟨rfl, fun _ => ⟨⟨held.taken, rfl⟩, fun reply => ⟨rfl, fun r => ?_⟩⟩⟩⟩
      rcases r with (_ | _) | _
      · exact gates_settle _
      · exact gates_returnPassage (gates_of_plain (plain_fail _) (ends_settled rfl))
      · exact gates_settle _

theorem gates_beginAttempt (held : Holdings) :
    (beginAttempt cfg worker job held).Keeps (gates held.route)
      ⟨.of held.passage, .held held.taken⟩ := by
  refine ⟨rfl, fun r => ?_⟩
  rcases r with _ | (_ | ⟨_ | _, since⟩ | record)
  · exact gates_returnAll (plain_fail _)
  · exact gates_carryOut held
  · exact gates_handBack (plain_defer _ _)
  · exact gates_handBack (plain_deadLetter _ _)
  · exact gates_handBack (plain_acknowledge _ _)

/-- Processing a job comes away from its gates with nothing in its hands. -/
theorem gates_process (cfg : Config) (worker : String) (job : Job) :
    (process cfg worker job).Keeps (gates job.routeKey) ⟨.unasked, .unasked⟩ := by
  refine ⟨rfl, fun now => ⟨rfl, fun wait => ?_⟩⟩
  dsimp only
  split_ifs
  · have unasked : (gates job.routeKey).ends ⟨.unasked, .unasked⟩ := ⟨nofun, rfl⟩
    exact gates_of_plain (plain_defer _ _) unasked
  · refine ⟨⟨rfl, rfl⟩, fun passage => ?_⟩
    dsimp only
    split_ifs with denied
    · subst denied
      have refused : (gates job.routeKey).ends ⟨.of .denied, .unasked⟩ := ends_settled rfl
      exact gates_of_plain (plain_defer _ _) refused
    · refine ⟨⟨rfl, rfl⟩, fun room => ?_⟩
      cases allowed : room.allowed with
      | false =>
        have settled : (gates job.routeKey).after ⟨.of passage, .unasked⟩
            ⟨.requestRoom job.routeKey now, room⟩ = ⟨.of passage, .settled now⟩ := by
          simp [gates, RoomHold.of, allowed]
        refine settled ▸ ?_
        simp only [allowed, Bool.not_false, if_true]
        exact gates_returnPassage (gates_of_plain (plain_defer _ _) (ends_settled rfl))
      | true =>
        have held : (gates job.routeKey).after ⟨.of passage, .unasked⟩
            ⟨.requestRoom job.routeKey now, room⟩ = ⟨.of passage, .held now⟩ := by
          simp [gates, RoomHold.of, allowed]
        refine held ▸ ?_
        simp only [allowed, Bool.not_true, Bool.false_eq_true, if_false]
        exact gates_beginAttempt ⟨job.routeKey, passage, now⟩

end Worker

end Courier
