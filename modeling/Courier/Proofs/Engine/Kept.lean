import Mathlib.Tactic.SplitIfs
import Courier.Engine.Service

/-! What an action leaves alone. An action works on one store at most, and a store call either
fails with nothing done or is carried out whole. -/

namespace Courier

/-- The store that an action works on. -/
def Action.store? : Action → Option Store
  | .leaseJobs _ _ _ | .renewLease _ _ _ | .completeJob _ _ | .releaseJob _ _ _ _ _
  | .deadLetterJob _ _ _ _ | .reclaimJobs | .pruneJobs _ => some .queue
  | .appendEnvelope _ | .leaseEnvelopes _ _ _ | .ackEnvelope _ _ | .reclaimEnvelopes
  | .pruneEnvelopes _ => some .inbox
  | .beginAttempt _ | .completeAttempt _ _ | .clearAttempt _ => some .attempts
  | .beat _ _ | .lastBeat _ => some .beats
  | _ => none

/-- Actions that are answered by the world outside, after however long. -/
def Action.isForeign : Action → Bool
  | .drawUnit | .materialize _ | .callAdapter _ => true
  | _ => false

namespace Engine

/-- The stores that `s` does not name are as before. -/
structure KeptBut (s : Option Store) (e e' : Engine) : Prop where
  queue : s ≠ some .queue → e'.queue = e.queue
  inbox : s ≠ some .inbox → e'.inbox = e.inbox
  attempts : s ≠ some .attempts → e'.attempts = e.attempts

theorem KeptBut.refl (s : Option Store) (e : Engine) : KeptBut s e e :=
  ⟨fun _ => rfl, fun _ => rfl, fun _ => rfl⟩

/-- A store call either fails on the way, and nothing has happened, or it is carried out at the
same time on the same stores. -/
theorem call_cases {γ : Type} {c : StoreCall} {offline : Except Error γ}
    {body : Engine → Except Error γ × Engine} {e e' : Engine} {r : Except Failure γ}
    (h : e.call c offline body = (r, e')) :
    (KeptBut none e e' ∧ ∀ a, r = .ok a → offline = .ok a) ∨
    ∃ e₁, KeptBut none e e₁ ∧ e₁.now = e.now ∧ r = (body e₁).1.mapError .error ∧
      e' = (body e₁).2 := by
  unfold call at h
  split_ifs at h with hu
  · cases h
    refine Or.inl ⟨.refl _ _, fun a ha => ?_⟩
    cases offline with
    | error => cases ha
    | ok => cases ha; rfl
  · generalize e.surroundings.takeFault c = t at h
    obtain ⟨fault, s⟩ := t
    cases fault with
    | none =>
      obtain ⟨hr, he⟩ := Prod.mk.inj h
      exact Or.inr ⟨{ e with surroundings := s }, ⟨fun _ => rfl, fun _ => rfl, fun _ => rfl⟩, rfl,
        hr.symm, he.symm⟩
    | fail | lost | crash =>
      cases h
      exact Or.inl ⟨⟨fun _ => rfl, fun _ => rfl, fun _ => rfl⟩, nofun⟩

/-- Without faults a store call gets through to a store that can be reached. -/
theorem call_through {γ : Type} {c : StoreCall} {e : Engine}
    (up : e.unreachable.contains c.store = false) (quiet : e.surroundings.faults = [])
    (offline : Except Error γ) (body : Engine → Except Error γ × Engine) :
    e.call c offline body = ((body e).1.mapError .error, (body e).2) := by
  have none_due : e.surroundings.takeFault c = (.none, e.surroundings) := by
    simp [Surroundings.takeFault, quiet]
  simp only [call, up, none_due]
  rfl

theorem KeptBut.trans {s : Option Store} {a b c : Engine} (h : KeptBut none a b)
    (h' : KeptBut s b c) : KeptBut s a c :=
  ⟨fun hs => (h'.queue hs).trans (h.queue nofun), fun hs => (h'.inbox hs).trans (h.inbox nofun),
    fun hs => (h'.attempts hs).trans (h.attempts nofun)⟩

theorem call_keeps {γ : Type} {c : StoreCall} {offline : Except Error γ}
    {body : Engine → Except Error γ × Engine} {s : Option Store}
    (h : ∀ e, KeptBut s e (body e).2) (e : Engine) : KeptBut s e (e.call c offline body).2 := by
  generalize hc : e.call c offline body = x
  obtain ⟨r, e'⟩ := x
  rcases call_cases hc with ⟨kept, -⟩ | ⟨e₁, kept, -, -, rfl⟩
  · exact kept.trans (.refl s _)
  · exact kept.trans (h e₁)

/-- A call that succeeds was carried out. -/
theorem call_ok {γ : Type} {c : StoreCall} {x : Error} {body : Engine → Except Error γ × Engine}
    {e e' : Engine} {b : γ} (h : e.call c (.error x) body = (.ok b, e')) :
    ∃ e₁, KeptBut none e e₁ ∧ e₁.now = e.now ∧ body e₁ = (.ok b, e') := by
  rcases call_cases h with ⟨-, hoff⟩ | ⟨e₁, kept, hnow, hr, rfl⟩
  · cases hoff b rfl
  · refine ⟨e₁, kept, hnow, Prod.ext ?_ rfl⟩
    generalize (body e₁).1 = y at hr
    cases y with
    | error => cases hr
    | ok => cases hr; rfl

/-- A call that fails leaves all stores as they were, if only its body does. -/
theorem call_error {γ : Type} {c : StoreCall} {offline : Except Error γ}
    {body : Engine → Except Error γ × Engine} {e e' : Engine} {x : Failure}
    (h : e.call c offline body = (.error x, e'))
    (hbody : ∀ e y e', body e = (.error y, e') → KeptBut none e e') : KeptBut none e e' := by
  rcases call_cases h with ⟨kept, -⟩ | ⟨e₁, kept, -, hr, rfl⟩
  · exact kept
  · refine kept.trans ?_
    have := hbody e₁
    generalize body e₁ = y at hr this
    obtain ⟨y, e'⟩ := y
    cases y with
    | ok => cases hr
    | error y => exact this y e' rfl

theorem reply_inj {γ : Type} {x : γ × Engine} {r : γ} {e' : Engine}
    (h : replied x = .reply r e') : x = (r, e') := by
  cases h
  rfl

/-- An operation of the queue is carried out, or it fails and nothing has changed. -/
theorem onQueue_cases {γ : Type} (f : Queue → Except Error (γ × Queue)) (e : Engine) :
    (∃ x, e.onQueue f = (.error x, e)) ∨
      ∃ b q, f e.queue = .ok (b, q) ∧ e.onQueue f = (.ok b, { e with queue := q }) := by
  unfold onQueue
  split
  · rename_i b q hf
    exact Or.inr ⟨b, q, hf, rfl⟩
  · exact Or.inl ⟨_, rfl⟩

theorem onQueue_keeps {γ : Type} (f : Queue → Except Error (γ × Queue)) (e : Engine) :
    KeptBut (some .queue) e (e.onQueue f).2 := by
  unfold onQueue
  split <;> exact ⟨fun h => absurd rfl h, fun _ => rfl, fun _ => rfl⟩

theorem restartDead_go_keeps (slots : List Slot) (e : Engine) :
    KeptBut none e (restartDead.go slots e).2.2 := by
  induction slots generalizing e with
  | nil => exact .refl _ _
  | cons s rest ih =>
    unfold restartDead.go
    split_ifs
    · have := ih (e.spawn (.worker s.worker)).2
      exact ⟨this.queue, this.inbox, this.attempts⟩
    · exact ih e

theorem restartDead_keeps (e : Engine) : KeptBut none e e.restartDead.2 := by
  unfold restartDead
  split_ifs
  · exact .refl _ _
  · have := restartDead_go_keeps e.slots e
    exact ⟨this.queue, this.inbox, this.attempts⟩

/-- An answered action leaves every store but its own as it was. -/
theorem perform_keeps {e e' : Engine} {a : Action} {r : a.Reply} (own : a.isForeign = false)
    (h : e.perform a = .reply r e') : KeptBut a.store? e e' := by
  cases a with
  | drawUnit | materialize | callAdapter => cases own
  | renewLease | completeJob | releaseJob | deadLetterJob =>
    cases h
    exact call_keeps (fun e => onQueue_keeps _ e) e
  | leaseJobs | reclaimJobs | pruneJobs =>
    cases h
    exact call_keeps (fun e => ⟨fun h => absurd rfl h, fun _ => rfl, fun _ => rfl⟩) e
  | beginAttempt | completeAttempt | clearAttempt =>
    cases h
    exact call_keeps (fun e => ⟨fun _ => rfl, fun _ => rfl, fun h => absurd rfl h⟩) e
  | appendEnvelope | leaseEnvelopes | reclaimEnvelopes | pruneEnvelopes =>
    cases h
    exact call_keeps (fun e => ⟨fun _ => rfl, fun h => absurd rfl h, fun _ => rfl⟩) e
  | ackEnvelope =>
    cases h
    refine call_keeps (fun e => ?_) e
    split <;> exact ⟨fun _ => rfl, fun h => absurd rfl h, fun _ => rfl⟩
  | beat | lastBeat =>
    cases h
    exact call_keeps (fun e => ⟨fun _ => rfl, fun _ => rfl, fun _ => rfl⟩) e
  | applyEnvelope =>
    cases h
    unfold applyEnvelope
    split
    split <;> exact ⟨fun _ => rfl, fun _ => rfl, fun _ => rfl⟩
  | restartDead =>
    cases h
    exact restartDead_keeps e
  | pause | pauseForEnvelope | join | sleep => cases h
  | _ =>
    cases h
    exact ⟨fun _ => rfl, fun _ => rfl, fun _ => rfl⟩

theorem over?_keeps {w : Wait} {e e' : Engine} {waking : Waking}
    (h : w.over? e = some (waking, e')) : KeptBut none e e' := by
  unfold Wait.over? at h
  split_ifs at h <;> cases h <;> exact ⟨fun _ => rfl, fun _ => rfl, fun _ => rfl⟩

/-- A scripted call is answered at once or after a wait, and may take back leases at its end. -/
theorem play_cases {γ : Type} (t : Turn γ) (overrun : γ) (e : Engine) :
    (∃ r e₁ e', KeptBut none e e₁ ∧ (e' = e₁ ∨ e' = e₁.reclaimQuietly) ∧
      play t overrun e = .reply r e') ∨
    ∃ w e', KeptBut none e e' ∧ play t overrun e = .wait w (fun _ e => endTurn t e) e' := by
  unfold play
  split
  · exact Or.inl ⟨overrun, e, e, .refl _ _, Or.inl rfl, rfl⟩
  · rename_i e₁ h
    have moved : KeptBut none e e₁ := by
      split at h
      · obtain ⟨now, -, rfl⟩ := Option.map_eq_some_iff.1 h
        exact ⟨fun _ => rfl, fun _ => rfl, fun _ => rfl⟩
      · cases h
        exact .refl _ _
    cases t.sleepMs with
    | some ms => exact Or.inr ⟨_, e₁, moved, rfl⟩
    | none =>
      refine Or.inl ⟨t.reply, e₁, _, moved, ?_, rfl⟩
      dsimp only [endTurn]
      split_ifs
      · exact Or.inr rfl
      · exact Or.inl rfl

theorem materialize_play (i : Intent) (e : Engine) : ∃ t overrun e₀, KeptBut none e e₀ ∧
    e.materialize i = e₀.play t overrun :=
  ⟨_, _, { e with surroundings := (e.surroundings.takeMaterializer i).2 },
    ⟨fun _ => rfl, fun _ => rfl, fun _ => rfl⟩, rfl⟩

theorem callAdapter_play (i : Intent) (e : Engine) : ∃ t overrun e₀, KeptBut none e e₀ ∧
    e.callAdapter i = e₀.play t overrun := by
  unfold callAdapter
  have kept : KeptBut none e
      (if e.surroundings.isScripted i then { e with calls := e.calls ++ [i] } else e) := by
    split_ifs <;> exact ⟨fun _ => rfl, fun _ => rfl, fun _ => rfl⟩
  generalize (if e.surroundings.isScripted i then { e with calls := e.calls ++ [i] } else e) = e₁
    at kept
  exact ⟨_, _, { e₁ with surroundings := (e₁.surroundings.takeAdapter i).2 },
    ⟨kept.queue, kept.inbox, kept.attempts⟩, rfl⟩

end Engine

end Courier
