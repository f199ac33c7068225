import Courier.Proofs.Engine.Kept
import Courier.Proofs.Pacing
import Courier.Proofs.Plan

/-! What no answered action of a plan touches: the settings and the clock. Pacing is touched by its
own actions only, and the time of the last send by the send alone. -/

namespace Courier

/-- The time of a send on `route` that a deed recorded. -/
def Deed.sentOn? (route : String) : Deed → Option Timestamp
  | ⟨.pacingSend r t, _⟩ => if r = route then some t else none
  | _ => none

namespace Engine

/-- The settings, the clock and the pacing are as before. -/
structure Steady (e e' : Engine) : Prop where
  config : e'.config = e.config
  clock : e'.clock = e.clock
  slept : e'.sleptMs = e.sleptMs
  pacing : e'.pacing = e.pacing

theorem Steady.refl (e : Engine) : Steady e e := ⟨rfl, rfl, rfl, rfl⟩

theorem Steady.now {e e' : Engine} (h : Steady e e') : e'.now = e.now := by
  rw [Engine.now, Engine.now, h.clock, h.slept]

theorem call_steady {γ : Type} {c : StoreCall} {offline : Except Error γ}
    {body : Engine → Except Error γ × Engine} (h : ∀ e, Steady e (body e).2) (e : Engine) :
    Steady e (e.call c offline body).2 := by
  unfold call
  split_ifs
  · exact .refl e
  · generalize e.surroundings.takeFault c = t
    obtain ⟨fault, s⟩ := t
    have on := h { e with surroundings := s }
    cases fault with
    | none => exact ⟨on.config, on.clock, on.slept, on.pacing⟩
    | fail | lost | crash => exact ⟨rfl, rfl, rfl, rfl⟩

theorem onQueue_steady {γ : Type} (f : Queue → Except Error (γ × Queue)) (e : Engine) :
    Steady e (e.onQueue f).2 := by
  unfold onQueue
  split <;> exact ⟨rfl, rfl, rfl, rfl⟩

theorem restartDead_go_steady (slots : List Slot) (e : Engine) :
    Steady e (restartDead.go slots e).2.2 := by
  induction slots generalizing e with
  | nil => exact .refl e
  | cons s rest ih =>
    unfold restartDead.go
    split_ifs
    · have := ih (e.spawn (.worker s.worker)).2
      exact ⟨this.config, this.clock, this.slept, this.pacing⟩
    · exact ih e

theorem restartDead_steady (e : Engine) : Steady e e.restartDead.2 := by
  unfold restartDead
  split_ifs
  · exact .refl e
  · have := restartDead_go_steady e.slots e
    exact ⟨this.config, this.clock, this.slept, this.pacing⟩

/-- An answered action leaves the settings and the clock, and moves the last send of a route only
by a send on it. -/
theorem perform_lastSent {e e' : Engine} {a : Action} {r : a.Reply} (own : a.isForeign = false)
    (h : e.perform a = .reply r e') : e'.config = e.config ∧ e'.now = e.now ∧
      ∀ route, Pacing.lastSent e'.pacing route =
        (Deed.sentOn? route ⟨a, r⟩).or (Pacing.lastSent e.pacing route) := by
  have steady : Steady e e' → (∀ route, Deed.sentOn? route ⟨a, r⟩ = none) →
      e'.config = e.config ∧ e'.now = e.now ∧ ∀ route, Pacing.lastSent e'.pacing route =
        (Deed.sentOn? route ⟨a, r⟩).or (Pacing.lastSent e.pacing route) := by
    intro s none
    refine ⟨s.config, s.now, fun route => ?_⟩
    rw [none, s.pacing]
    rfl
  cases a with
  | drawUnit | materialize | callAdapter => cases own
  | pacingSend route t =>
    cases h
    refine ⟨rfl, rfl, fun r => ?_⟩
    simp only [Pacing.lastSent_recordSend, Deed.sentOn?, eq_comm (a := route)]
    split_ifs <;> rfl
  | pacingSuccess route =>
    cases h
    exact ⟨rfl, rfl, fun r => Pacing.lastSent_recordSuccess _ _ _ r⟩
  | pacingFailure route o =>
    cases h
    exact ⟨rfl, rfl, fun r => Pacing.lastSent_recordFailure _ _ _ _ r⟩
  | renewLease | completeJob | releaseJob | deadLetterJob =>
    cases h
    exact steady (call_steady (fun e => onQueue_steady _ e) e) fun _ => rfl
  | leaseJobs | reclaimJobs | pruneJobs | beginAttempt | completeAttempt | clearAttempt
  | appendEnvelope | leaseEnvelopes | reclaimEnvelopes | pruneEnvelopes | beat | lastBeat =>
    cases h
    exact steady (call_steady (fun e => ⟨rfl, rfl, rfl, rfl⟩) e) fun _ => rfl
  | ackEnvelope =>
    cases h
    refine steady (call_steady (fun e => ?_) e) fun _ => rfl
    split <;> exact ⟨rfl, rfl, rfl, rfl⟩
  | applyEnvelope =>
    cases h
    refine steady ?_ fun _ => rfl
    unfold applyEnvelope
    split
    split <;> exact ⟨rfl, rfl, rfl, rfl⟩
  | restartDead =>
    cases h
    exact steady (restartDead_steady e) fun _ => rfl
  | pause | pauseForEnvelope | join | sleep => cases h
  | _ =>
    cases h
    exact steady ⟨rfl, rfl, rfl, rfl⟩ fun _ => rfl

end Engine

end Courier
