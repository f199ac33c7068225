import Courier.Proofs.Fleet.Orderly

/-! Envelopes under races. Where the inbox is not pruned and its identifiers are new, a job has one
record from the first envelope on, whoever sends it and however often. An errand that comes to its
end has sent one if and only if it ended the job or saw a success. -/

namespace Courier

/-- What is done beside the errands where the inbox is not pruned. -/
def Action.keepsEnvelopes : Action → Bool
  | .pruneEnvelopes _ => false
  | _ => true

namespace Engine

theorem perform_keepsInbox {e e' : Engine} {a : Action} {r : a.Reply} (own : a.isForeign = false)
    (h : e.perform a = .reply r e') (keeps : a.keepsEnvelopes = true) :
    Inbox.Change ⟨e.ids.next⟩ e.inbox (Deed.stored? ⟨a, r⟩) e'.inbox := by
  rcases perform_inbox own h with ⟨cutoff, rfl, -⟩ | change
  · cases keeps
  · exact change

end Engine

namespace Fleet

variable {e : Engine} {f g : Fleet}

/-- One step gives at most one job an envelope, under an identifier that is new. -/
def Stores (f g : Fleet) : Prop :=
  ∃ o, Inbox.Change ⟨f.engine.ids.next⟩ f.engine.inbox o g.engine.inbox ∧
    (o ≠ none → f.DrawsNew) ∧ ∀ id, g.HasAppended id → f.HasAppended id ∨ o = some id

theorem Stores.of_same (hi : g.engine.inbox = f.engine.inbox)
    (hd : ∀ id, g.HasAppended id → f.HasAppended id) : Stores f g :=
  ⟨none, hi ▸ .same, fun h => absurd rfl h, fun id h => Or.inl (hd id h)⟩

theorem Stores.of_performed {e' : Engine} {a : Action} {r : a.Reply} (forJob : a.isForJob = false)
    (own : a.isForeign = false) (done : f.engine.perform a = .reply r e')
    (keeps : a.keepsEnvelopes = true) : Stores f { f with engine := e' } := by
  have change := Engine.perform_keepsInbox own done keeps
  rw [(Engine.deed_beside forJob r).2] at change
  exact ⟨none, change, fun h => absurd rfl h, fun _ h => Or.inl h⟩

theorem OrderlyStep.stores (run : Steps (idle e) f) (h : OrderlyStep Action.keepsEnvelopes f g) :
    Stores f g := by
  cases h with
  | begin cfg worker job => exact .of_same rfl fun _ => Did.of_begun
  | @move n x x' e' new hx move =>
    have hmem := List.mem_of_getElem? hx
    rcases move.cases with ⟨a, r, ans⟩ | ⟨rfl, hpast, -⟩
    · refine ⟨Deed.stored? ⟨a, r⟩, ?_, fun _ => new, fun id h => h.of_answered hx move.job ans⟩
      have allowed := (run.phaseMove hmem ans move.worker move.job).1
      rcases ans.source with ⟨foreign, rfl⟩ | ⟨own, done⟩
      · rw [show Deed.stored? ⟨a, r⟩ = none by cases a <;> first | rfl | cases foreign]
        exact .same
      · refine Engine.perform_keepsInbox own done ?_
        cases a with
        | pruneEnvelopes => exact allowed.elim
        | _ => rfl
    · exact .of_same rfl fun id h => h.of_same_past hx move.job hpast
  | loop keeps _ forJob own done => exact .of_performed forJob own done keeps
  | enqueue j => exact .of_same ((Engine.enqueue_effect j f.engine).1.inbox nofun) fun _ h => h
  | replay id actor =>
    exact .of_same ((Engine.replay_effect id actor f.engine).1.inbox nofun) fun _ h => h
  | resolve id entry actor =>
    exact .of_same ((Engine.resolve_effect id entry actor f.engine).1.inbox nofun) fun _ h => h
  | elsewhere kept => exact .of_same (kept.inbox nofun) fun _ h => h

/-- The list of jobs that were seen is right: it counts the records, and holds every job for which an
envelope was taken. -/
structure Delivering (f : Fleet) : Prop where
  sound : f.engine.inbox.Sound
  seen : ∀ id, f.HasAppended id → id ∈ f.engine.inbox.seen

theorem Delivering.step (h : Delivering f) (stores : Stores f g) : Delivering g := by
  obtain ⟨o, change, new, appended⟩ := stores
  refine ⟨h.sound.change (fun ho => (new ho).2) change, fun id hid => ?_⟩
  rw [change.mem_seen_iff]
  exact (appended id hid).imp_left (h.seen id)

theorem OrderlySteps.delivering (hi : e.inbox = .empty)
    (run : OrderlySteps Action.keepsEnvelopes (idle e) f) : Delivering f := by
  induction run with
  | refl =>
    refine ⟨?_, fun id ⟨x, hx, _⟩ => (by cases hx)⟩
    rw [show (idle e).engine.inbox = .empty from hi]
    exact Inbox.sound_empty
  | tail before step ih => exact ih.step (step.stores (OrderlySteps.steps before))

/-- An adapter call for the job has come back with a success. -/
def HasWon (id : JobId) : Fleet → Prop := Did fun j d => j.id = id ∧ d.isSuccess = true

instance (id : JobId) (f : Fleet) : Decidable (f.HasWon id) :=
  inferInstanceAs (Decidable (f.Did _))

/-- An errand that is done without a failure of a store has sent an envelope exactly if it ended its
job or saw a success. -/
theorem Steps.sent_iff (run : Steps (idle e) f) {x : Errand} (hx : x ∈ f.errands)
    (done : x.isDone = true) (intact : ∀ d ∈ x.past, d.isBroken = false) :
    (∃ d ∈ x.past, d.sent? = some true) ↔ x.HasEnded ∨ ∃ d ∈ x.past, d.isSuccess = true := by
  obtain ⟨keeps, charted, -, duty⟩ := run.charted hx
  have whole : x.phase ≠ .broken := by
    intro hs
    obtain ⟨d, hd, broken⟩ := charted.broken hs
    rw [intact d hd] at broken
    cases broken
  constructor
  · intro sent
    rw [(Steps.booked run hx).paid.1 sent] at duty
    refine charted.due (Or.inr ?_)
    cases hs : x.phase with
    | paid => rfl
    | broken => exact absurd hs whole
    | owing =>
      rw [hs] at duty
      rcases duty with hd | hd <;> cases hd
    | _ =>
      rw [hs] at duty
      cases duty
  · intro due
    have ends : (course x.worker x.job).ends x.phase := by
      unfold Errand.isDone at done
      split at done
      · rename_i hp
        rw [hp] at keeps
        exact keeps
      · cases done
    refine charted.paid ?_
    have won : x.phase.Won := by
      rcases due with ended | won
      · rcases charted.ended ended with hs | hs | hs <;> simp [Phase.Won, hs]
      · exact charted.won won
    -- of the phases after a success only one may be the last
    rcases won with hs | hs | hs | hs | hs
    · rw [hs] at ends
      simp [course] at ends
    · rw [hs] at ends
      simp [course] at ends
    · rw [hs] at ends
      simp [course] at ends
    · exact hs
    · exact absurd hs whole

/-- With all errands for a job done, and no store call failed on their way, the job has exactly one
record in the inbox if it has ended; and while it is waiting or leased, it has one if an adapter
call for it has come back with a success, and else none. -/
theorem OrderlySteps.delivered_once {config : Config} {start : Timestamp}
    {surroundings : Surroundings}
    (run : OrderlySteps Action.keepsEnvelopes (idle (.create config start surroundings)) f)
    {id : JobId} {j : Job} (stored : f.engine.queue.get? id = some j)
    (done : ∀ x ∈ f.errands, x.job.id = id → x.isDone = true)
    (intact : ∀ x ∈ f.errands, x.job.id = id → ∀ d ∈ x.past, d.isBroken = false) :
    (j.state = .completed ∨ j.state = .dlq → f.engine.inbox.recordsFor id = 1) ∧
      (j.state = .queued ∨ j.state = .leased →
        f.engine.inbox.recordsFor id = if f.HasWon id then 1 else 0) := by
  have steps := OrderlySteps.steps run
  have accounted := Steps.accounted rfl rfl steps
  have delivering := OrderlySteps.delivering rfl run
  have sent_iff := fun x hx (hid : x.job.id = id) =>
    Steps.sent_iff steps hx (done x hx hid) (intact x hx hid)
  -- the inbox has an envelope exactly if some errand was to send one
  have seen_iff : id ∈ f.engine.inbox.seen ↔
      (∃ x ∈ f.errands, x.job.id = id ∧ x.HasEnded) ∨ f.HasWon id := by
    constructor
    · intro seen
      obtain ⟨x, hx, d, hd, hstored⟩ := accounted.seen id seen
      have hid := ((Steps.booked steps hx).own d hd id (Or.inr hstored)).symm
      have sent : d.sent? = some true := by
        by_contra hn
        rw [stored?_of_sent? hn] at hstored
        cases hstored
      rcases (sent_iff x hx hid).1 ⟨d, hd, sent⟩ with ended | ⟨d, hd, success⟩
      · exact Or.inl ⟨x, hx, hid, ended⟩
      · exact Or.inr ⟨x, hx, d, hd, hid, success⟩
    · rintro (⟨x, hx, hid, ended⟩ | ⟨x, hx, d, hd, hid, success⟩)
      · have := accounted.sent x hx ((sent_iff x hx hid).2 (Or.inl ended))
        exact delivering.seen id (hid ▸ this)
      · have := accounted.sent x hx ((sent_iff x hx hid).2 (Or.inr ⟨d, hd, success⟩))
        exact delivering.seen id (hid ▸ this)
  have counted := delivering.sound.counted id
  constructor
  · intro ended
    have inactive : j.isActive = false := by
      rcases ended with hs | hs <;> rw [Job.isActive, hs] <;> rfl
    obtain ⟨x, hx, d, hd, hid, hends⟩ := accounted.ended id j stored inactive
    rw [counted, if_pos (seen_iff.2 (Or.inl ⟨x, hx, hid, d, hd, hid ▸ hends⟩))]
  · intro active
    rw [counted]
    refine if_congr (seen_iff.trans ⟨fun h => ?_, Or.inr⟩) rfl rfl
    rcases h with ⟨x, hx, hid, ended⟩ | won
    · have inactive := OrderlySteps.final rfl rfl run x hx ended j (hid ▸ stored)
      rw [(Queue.isActive_iff j).2 active] at inactive
      cases inactive
    · exact won

/-- What may happen to a worker whose lease runs out while the adapter works. -/
def overtaking : List Order :=
  [.enqueue (Queue.sampleJob 1 "post-1"), .loop (.leaseJobs "w-1" 1 (.ofMillis 1000)),
    .begin "w-1" ⟨.ofNat 1⟩, .turns 0 20, .sleep 60000, .loop .reclaimJobs,
    .loop (.leaseJobs "w-2" 1 (.ofMillis 1000)), .begin "w-2" ⟨.ofNat 1⟩, .turns 1 20,
    .arrive 0 (.outcome .success), .turns 0 20]

/-- Another worker has leased the job and deferred it, the adapter has reported a success to the
first, and this one has sent the envelope for a job that is waiting again. -/
def overtakenWorker : Fleet := overtaking.foldl follow (idle (.create .usual .epoch .quiet))

theorem delivered_once_overtakenWorker :
    (overtakenWorker.engine.queue.get? ⟨.ofNat 1⟩).map Job.state = some .queued ∧
      overtakenWorker.engine.inbox.recordsFor ⟨.ofNat 1⟩ = 1 := by
  have admitted : AdmitsAll Action.keepsEnvelopes (idle (.create .usual .epoch .quiet))
      overtaking := by
    decide +kernel
  have run : OrderlySteps Action.keepsEnvelopes (idle (.create .usual .epoch .quiet))
      overtakenWorker := admitted.foldl_follow
  have queued : (overtakenWorker.engine.queue.get? ⟨.ofNat 1⟩).map Job.state = some .queued := by
    decide +kernel
  obtain ⟨j, stored, waiting⟩ := Option.map_eq_some_iff.1 queued
  have once := (run.delivered_once stored (by decide +kernel) (by decide +kernel)).2
    (Or.inl waiting)
  rw [if_pos (by decide +kernel)] at once
  exact ⟨queued, once⟩

end Fleet

end Courier
