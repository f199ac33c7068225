import Courier.Http.Service
import Courier.Proofs.Engine.Kept
import Courier.Proofs.Limiter.Settle
import Courier.Proofs.Text.Split

/-! What a request may change. Only a write that was accepted and the collection of what the
circuits went through touch the stores, the gates or the observers. A look at the limits trims
windows, and a request that is turned down may have used up an id; nobody can tell later. -/

namespace Courier.Http

open Engine

/-- The settings, the stores, the circuits and the pacing are as before, the observers were told nothing, and
from now on the limiter decides as if nothing had been asked. -/
structure Untouched (e e' : Engine) : Prop where
  config : e'.config = e.config
  queue : e'.queue = e.queue
  inbox : e'.inbox = e.inbox
  attempts : e'.attempts = e.attempts
  liveness : e'.liveness = e.liveness
  breaker : e'.breaker = e.breaker
  pacing : e'.pacing = e.pacing
  bus : e'.bus = e.bus
  limiter : Limiter.SameFrom e.config.rateLimit e.now e.limiter e'.limiter

variable {e e' : Engine} {r : Request} {x : Response}

/-- Ids that were drawn and faults that came up are no matter. -/
theorem Untouched.of_aside (e : Engine) (ids : IdSupply) (s : Surroundings) :
    Untouched e { e with ids := ids, surroundings := s } :=
  ⟨rfl, rfl, rfl, rfl, rfl, rfl, rfl, rfl, (Limiter.AlikeFrom.refl _ _ _).same⟩

theorem Untouched.refl (e : Engine) : Untouched e e := .of_aside e e.ids e.surroundings

theorem rateUsage_untouched (e : Engine) : Untouched e (e.rateUsage e.now).2 :=
  ⟨rfl, rfl, rfl, rfl, rfl, rfl, rfl, rfl, (Limiter.AlikeFrom.of_settle _ _ _).same⟩

/-- A job that is not taken in leaves nothing but a fault that came up. -/
theorem enqueue_refused {j : Job} {why : Failure} (h : e.enqueue j = (.error why, e')) :
    ∃ s, e' = { e with surroundings := s } := by
  unfold enqueue call at h
  split_ifs at h
  · refine ⟨e.surroundings, ?_⟩
    cases hc : checkNew j with
    | error =>
      rw [hc] at h
      cases h
      rfl
    | ok =>
      rw [hc] at h
      cases h
      rfl
  · generalize e.surroundings.takeFault .enqueue = t at h
    obtain ⟨fault, s⟩ := t
    refine ⟨s, ?_⟩
    cases fault with
    | fail | lost | crash =>
      cases h
      rfl
    | none =>
      rcases onQueue_cases (Queue.enqueue j ({ e with surroundings := s } : Engine).now)
        { e with surroundings := s } with ⟨why', hq⟩ | ⟨b, q, -, hq⟩
      · simp only [hq, Except.mapError] at h
        cases h
        rfl
      · simp only [hq, Except.mapError] at h
        cases h

/-- A dead letter that is not replayed leaves nothing but the id that was drawn for the copy. -/
theorem replay_refused {id : JobId} {actor : String} {why : Error}
    (h : e.replay id actor = (.error why, e')) : ∃ ids, e' = { e with ids := ids } := by
  unfold Engine.replay at h
  split_ifs at h
  · cases h
    exact ⟨e.ids, rfl⟩
  · dsimp only [drawId] at h
    generalize ({ e with ids := e.ids.advance } : Engine).now = now at h
    refine ⟨e.ids.advance, ?_⟩
    rcases onQueue_cases (Queue.replay id ⟨e.ids.next⟩ now) { e with ids := e.ids.advance } with
      ⟨why', hq⟩ | ⟨b, q, -, hq⟩
    · rw [hq] at h
      cases h
      rfl
    · rw [hq] at h
      cases h

theorem resolve_refused {id : JobId} {entry : DlqState} {actor : String} {why : Error}
    (h : e.resolve id entry actor = (.error why, e')) : e' = e := by
  unfold Engine.resolve at h
  split_ifs at h
  · exact (Prod.mk.inj h).2.symm
  · rcases onQueue_cases (Queue.resolve id entry e.now) e with ⟨why', hq⟩ | ⟨b, q, -, hq⟩
    · rw [hq] at h
      cases h
      rfl
    · rw [hq] at h
      cases h

theorem ok_lt (j : Json) : (Response.ok j).status < 400 := show 200 < 400 by decide

theorem submit_cases (h : submit r e = some (x, e')) : Untouched e e' ∨ x.status < 400 := by
  unfold submit at h
  split at h
  · cases h
    exact Or.inl (.refl e)
  · dsimp only [newJob, drawId] at h
    split at h
    · cases h
      right
      dsimp only
      split_ifs <;> decide
    · rename_i refused
      cases h
      obtain ⟨faults, rfl⟩ := enqueue_refused refused
      exact Or.inl (.of_aside e _ _)
    · cases h

theorem replay_cases {id : String} (h : replay id r e = (x, e')) :
    Untouched e e' ∨ x.status < 400 := by
  unfold replay at h
  split at h
  · cases h
    exact Or.inl (.refl e)
  · cases h
    exact Or.inl (.refl e)
  · split at h
    · cases h
      exact Or.inl (.refl e)
    · cases h
      exact Or.inl (.refl e)
    · rename_i job actor _ _
      generalize hr : e.replay job (actorOf actor) = result at h
      obtain ⟨result, e₁⟩ := result
      cases h
      cases result with
      | ok b => exact Or.inr (ok_lt _)
      | error why =>
        obtain ⟨ids, rfl⟩ := replay_refused hr
        exact Or.inl (.of_aside e _ _)

theorem resolve_cases {id : String} (h : resolve id r e = (x, e')) :
    Untouched e e' ∨ x.status < 400 := by
  unfold resolve at h
  split at h
  · cases h
    exact Or.inl (.refl e)
  · cases h
    exact Or.inl (.refl e)
  · rename_i raw actor entry _ _
    split at h
    · cases h
      exact Or.inl (.refl e)
    · rename_i job _
      generalize hr : e.resolve job entry (actorOf actor) = result at h
      obtain ⟨result, e₁⟩ := result
      cases h
      cases result with
      | ok b => exact Or.inr (ok_lt _)
      | error why =>
        rw [resolve_refused hr]
        exact Or.inl (.refl e)

/-- What changes anything is a write or the collection of the circuits' events, and succeeds. -/
theorem serve_cases {route : Route} (h : serve route r e = some (x, e')) :
    Untouched e e' ∨ (x.status < 400 ∧ (route.isWrite ∨ route = .circuitEvents)) := by
  cases route with
  | jobs => exact (submit_cases h).imp_right fun ok => ⟨ok, Or.inl rfl⟩
  | replay id => exact (replay_cases (Option.some.inj h)).imp_right fun ok => ⟨ok, Or.inl rfl⟩
  | resolve id => exact (resolve_cases (Option.some.inj h)).imp_right fun ok => ⟨ok, Or.inl rfl⟩
  | circuitEvents =>
    cases h
    exact Or.inr ⟨ok_lt _, Or.inr rfl⟩
  | rateLimits =>
    cases h
    exact Or.inl (rateUsage_untouched e)
  | health | job | deadLetters | queueFigures | workers =>
    cases h
    exact Or.inl (.refl e)

/-- Only one path leads to the collection of the circuits' events. -/
theorem path_of_circuitEvents {path : String} (h : Route.ofPath? path = some .circuitEvents) :
    path = "/v1/circuits/events" := by
  have parts : path.splitOn "/" = ["", "v1", "circuits", "events"] := by
    unfold Route.ofPath? Route.named? at h
    split at h
    case h_8 parts => exact parts
    all_goals simp at h
  rw [← Text.join_splitOn_slash path, parts]
  decide +kernel

theorem answer_cases (h : answer r e = some (x, e')) : Untouched e e' ∨
    (x.status < 400 ∧ (r.method = "POST" ∨ r.target.path = "/v1/circuits/events")) := by
  unfold answer at h
  split at h
  · cases h
    exact Or.inl (.refl e)
  · rename_i route found
    split at h
    · cases h
      exact Or.inl (.refl e)
    · rename_i allowed
      split at h
      · rename_i x₀ e₀ served
        cases h
        refine (serve_cases served).imp_right fun ⟨fine, kind⟩ => ⟨?_, kind.imp ?_ ?_⟩
        · split_ifs
          · exact fine
          · exact fine
        · intro write
          simpa [Route.allows, write] using allowed
        · rintro rfl
          exact path_of_circuitEvents found
      · cases h

/-- A request that is refused, or that reads anything but the circuits' events, leaves the stores
and the gates as they were, tells the observers nothing, and has no influence on what the limiter
will decide. -/
theorem answer_refused_or_read (h : answer r e = some (x, e'))
    (idle : 400 ≤ x.status ∨ (r.method = "GET" ∧ r.target.path ≠ "/v1/circuits/events")) :
    Untouched e e' := by
  rcases answer_cases h with untouched | ⟨fine, changes⟩
  · exact untouched
  · exfalso
    rcases idle with refused | ⟨get, other⟩
    · omega
    · rcases changes with post | events
      · exact absurd (get.symm.trans post) (by decide)
      · exact other events

def sampleRequest (method path : String) : Request := ⟨method, ⟨path, none⟩, none, ""⟩

/-- Two minutes after the start, with a call at the start still in its windows. -/
def sampleEngine : Engine :=
  { Engine.create .usual .epoch .quiet with
    sleptMs := 120000
    limiter := ⟨[.epoch], Table.empty.insert "a" [.epoch]⟩ }

/-- A job that is not sent as a document is refused; the look at the limits trims the windows. -/
theorem answer_refused_or_read_sample :
    (∃ x e', answer (sampleRequest "POST" "/v1/jobs") sampleEngine = some (x, e') ∧
      x.status = 415 ∧ Untouched sampleEngine e') ∧
    ∃ x e', answer (sampleRequest "GET" "/v1/rate-limits") sampleEngine = some (x, e') ∧
      e'.limiter.overall = [] ∧ Untouched sampleEngine e' := by
  have jobs : Route.ofPath? "/v1/jobs" = some .jobs := by
    rw [Route.ofPath?, Text.splitOn_slash]
    rfl
  have limits : Route.ofPath? "/v1/rate-limits" = some .rateLimits := by
    rw [Route.ofPath?, Text.splitOn_slash]
    rfl
  have refused : answer (sampleRequest "POST" "/v1/jobs") sampleEngine =
      some (Rejection.noJsonAnnounced.toResponse, sampleEngine) := by
    simp only [answer, sampleRequest, jobs]
    rfl
  have seen : answer (sampleRequest "GET" "/v1/rate-limits") sampleEngine =
      serve .rateLimits (sampleRequest "GET" "/v1/rate-limits") sampleEngine := by
    simp only [answer, sampleRequest, limits]
    rfl
  refine ⟨⟨_, _, refused, rfl, answer_refused_or_read refused (Or.inl (by decide))⟩,
    ⟨_, _, seen, ?_, answer_refused_or_read seen (Or.inr ⟨rfl, by decide⟩)⟩⟩
  decide +kernel

end Courier.Http
