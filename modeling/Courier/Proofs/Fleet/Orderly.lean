import Courier.Proofs.Fleet.Chart

/-! Fleets as they are run: a worker takes one job in hand at a time and asks for new ones only in
between, and identifiers for new jobs and envelopes have never been used before. -/

namespace Courier

/-- The worker for whom an action asks for jobs. -/
def Action.lessee? : Action → Option String
  | .leaseJobs worker _ _ => some worker
  | _ => none

namespace Engine

/-- What ends a job leaves it inactive. -/
theorem perform_ended {e e' : Engine} {a : Action} {r : a.Reply} (own : a.isForeign = false)
    (h : e.perform a = .reply r e') (keyed : e.queue.Keyed) {id : JobId}
    (ended : Deed.ended? ⟨a, r⟩ = some id) :
    ∀ j, e'.queue.get? id = some j → j.isActive = false := by
  have made := perform_made own h
  rw [Deed.ended?_eq, Option.bind_eq_some_iff] at ended
  obtain ⟨c, hc, ends⟩ := ended
  rw [hc] at made
  obtain ⟨x, ok⟩ := made
  exact fun j hj => (Queue.Call.change ok).inactive keyed ends hj

/-- What is done under a lease succeeds only for the holder. -/
theorem perform_held {e e' : Engine} {a : Action} {r : a.Reply} (own : a.isForeign = false)
    (h : e.perform a = .reply r e') {c : Queue.Call} (made : Deed.made? ⟨a, r⟩ = some c) {id : JobId}
    {worker : String} (claim : c.claim? = some (id, worker)) : ∃ j, e.queue.Holds id worker j := by
  have := perform_made own h
  rw [made] at this
  obtain ⟨x, ok⟩ := this
  exact (Queue.Call.change ok).holder claim

end Engine

namespace Fleet

/-- The worker has no errand on its way. -/
def IsIdle (worker : String) (f : Fleet) : Prop :=
  ∀ x ∈ f.errands, x.worker = worker → x.isRunning = false

/-- No job is known under `id`. -/
def IsNew (id : JobId) (f : Fleet) : Prop :=
  f.engine.queue.get? id = none ∧ ∀ x ∈ f.errands, x.job.id ≠ id

/-- The identifier that is drawn next has not been used. -/
def DrawsNew (f : Fleet) : Prop :=
  f.IsNew ⟨f.engine.ids.next⟩ ∧ f.engine.inbox.records.get? ⟨f.engine.ids.next⟩ = none

/-- One step of a fleet as it is run, where `beside` tells what the loops may do beside the
errands. -/
inductive OrderlyStep (beside : Action → Bool) (f : Fleet) : Fleet → Prop where
  | begin (cfg : Config) (worker : String) (job : Job) : f.IsIdle worker →
      OrderlyStep beside f { f with errands := f.errands ++ [.begin cfg worker job] }
  | move {n : Nat} {x x' : Errand} {e' : Engine} : f.DrawsNew → f.errands[n]? = some x →
      x.Move f.engine e' x' → OrderlyStep beside f ⟨e', f.errands.set n x'⟩
  | loop {a : Action} {r : a.Reply} {e' : Engine} : beside a = true →
      (∀ worker ∈ a.lessee?, f.IsIdle worker) → a.isForJob = false → a.isForeign = false →
      f.engine.perform a = .reply r e' → OrderlyStep beside f { f with engine := e' }
  | enqueue (j : Job) : f.IsNew j.id →
      OrderlyStep beside f { f with engine := (f.engine.enqueue j).2 }
  | replay (id : JobId) (actor : String) : f.DrawsNew →
      OrderlyStep beside f { f with engine := (f.engine.replay id actor).2 }
  | resolve (id : JobId) (entry : DlqState) (actor : String) :
      OrderlyStep beside f { f with engine := (f.engine.resolve id entry actor).2 }
  | elsewhere {e' : Engine} : f.engine.KeptBut none e' →
      OrderlyStep beside f { f with engine := e' }

abbrev OrderlySteps (beside : Action → Bool) : Fleet → Fleet → Prop :=
  Relation.ReflTransGen (OrderlyStep beside)

variable {beside : Action → Bool} {e : Engine} {f g : Fleet}

theorem OrderlyStep.step (h : OrderlyStep beside f g) : Step f g := by
  cases h with
  | begin cfg worker job => exact .begin cfg worker job
  | move _ hx move => exact .move hx move
  | loop _ _ forJob own done => exact .outside (.loop forJob own done)
  | enqueue j => exact .outside (.enqueue j)
  | replay id actor => exact .outside (.replay id actor)
  | resolve id entry actor => exact .outside (.resolve id entry actor)
  | elsewhere kept => exact .outside (.elsewhere kept)

theorem OrderlySteps.steps (run : OrderlySteps beside f g) : Steps f g :=
  Relation.ReflTransGen.mono (fun _ _ h => OrderlyStep.step h) f g run

instance (worker : String) (f : Fleet) : Decidable (f.IsIdle worker) :=
  inferInstanceAs (Decidable (∀ x ∈ f.errands, _))

instance (id : JobId) (f : Fleet) : Decidable (f.IsNew id) :=
  inferInstanceAs (Decidable (_ = none ∧ ∀ x ∈ f.errands, _))

instance (f : Fleet) : Decidable f.DrawsNew := inferInstanceAs (Decidable (_ ∧ _ = none))

/-- Whether it is orderly to follow an order. -/
def Admits (beside : Action → Bool) (f : Fleet) : Order → Prop
  | .enqueue j => f.IsNew j.id
  | .loop a => beside a = true ∧ ∀ worker ∈ a.lessee?, f.IsIdle worker
  | .begin worker _ => f.IsIdle worker
  | .turns n count => ∀ k < count, (f.turns n k).DrawsNew
  | .arrive _ _ | .stop _ => f.DrawsNew
  | .sleep _ | .disturb _ _ => True

instance (beside : Action → Bool) (f : Fleet) : (o : Order) → Decidable (f.Admits beside o)
  | .enqueue j => inferInstanceAs (Decidable (f.IsNew j.id))
  | .loop _ => inferInstanceAs (Decidable (_ = true ∧ ∀ worker ∈ _, _))
  | .begin worker _ => inferInstanceAs (Decidable (f.IsIdle worker))
  | .turns n count => inferInstanceAs (Decidable (∀ k < count, (f.turns n k).DrawsNew))
  | .arrive _ _ | .stop _ => inferInstanceAs (Decidable f.DrawsNew)
  | .sleep _ | .disturb _ _ => inferInstanceAs (Decidable True)

def AdmitsAll (beside : Action → Bool) : Fleet → List Order → Prop
  | _, [] => True
  | f, o :: os => f.Admits beside o ∧ (f.follow o).AdmitsAll beside os

instance decidableAdmitsAll (beside : Action → Bool) :
    (f : Fleet) → (os : List Order) → Decidable (f.AdmitsAll beside os)
  | _, [] => inferInstanceAs (Decidable True)
  | f, o :: os =>
    have := decidableAdmitsAll beside (f.follow o) os
    inferInstanceAs (Decidable (f.Admits beside o ∧ _))

theorem Admits.draws {beside : Action → Bool} {f g : Fleet} {o : Order} (h : f.Admits beside o)
    (moves : f.MovesBy o g) : g.DrawsNew := by
  cases o with
  | turns n count =>
    obtain ⟨k, hk, rfl⟩ := moves
    exact h k hk
  | arrive | stop =>
    cases moves
    exact h
  | _ => exact moves.elim

theorem Admits.follow {beside : Action → Bool} {f : Fleet} {o : Order} (h : f.Admits beside o) :
    OrderlySteps beside f (f.follow o) := by
  refine follow_run f o ?_ ?_ (fun _ kept => .elsewhere kept) ?_ fun _ _ _ _ _ moves hx move =>
    .move (h.draws moves) hx move
  · rintro j rfl
    exact .enqueue j h
  · rintro a r e' rfl forJob own done
    exact .loop h.1 h.2 forJob own done
  · rintro cfg worker id job rfl
    exact .begin cfg worker job h

/-- Orders that are admitted one after another are an orderly run. -/
theorem AdmitsAll.foldl_follow {beside : Action → Bool} {f : Fleet} {os : List Order}
    (h : f.AdmitsAll beside os) : OrderlySteps beside f (os.foldl Fleet.follow f) := by
  induction os generalizing f with
  | nil => exact .refl
  | cons o os ih => exact h.1.follow.trans (ih h.2)

/-- The queue goes through a call, if any, that gives only new ids to new jobs and jobs only to idle
workers. -/
def Advances (f g : Fleet) : Prop :=
  ∃ c?, Engine.Made c? f.engine g.engine ∧ ∀ c ∈ c?,
    (∀ id, Queue.Call.newId? c = some id → f.IsNew id) ∧
      ∀ worker batch visibility, c = .lease worker batch visibility → f.IsIdle worker

theorem Advances.of_same (h : g.engine.queue = f.engine.queue) : Advances f g :=
  ⟨none, h, fun _ hc => by cases hc⟩

/-- A call from outside is in order if it gives new ids to new jobs and leases nothing. -/
theorem Advances.of_call {c : Queue.Call}
    (h : g.engine.queue = f.engine.queue ∨ Engine.Made (some c) f.engine g.engine)
    (new : ∀ id, c.newId? = some id → f.IsNew id)
    (noLease : ∀ worker batch visibility, c ≠ .lease worker batch visibility) : Advances f g := by
  rcases h with same | made
  · exact .of_same same
  · refine ⟨some c, made, fun c' hc => ?_⟩
    obtain rfl := Option.some.inj hc
    exact ⟨new, fun worker batch visibility hl => absurd hl (noLease worker batch visibility)⟩

theorem isLease_of_made {a : Action} {r : a.Reply} {worker : String} {batch : Nat}
    {visibility : Span} (h : Deed.made? ⟨a, r⟩ = some (.lease worker batch visibility)) :
    a = .leaseJobs worker batch visibility := by
  cases a with
  | leaseJobs =>
    cases r with
    | error => cases h
    | ok =>
      cases h
      rfl
  | renewLease | completeJob | releaseJob | deadLetterJob | reclaimJobs | pruneJobs =>
    cases r <;> cases h
  | _ => cases h

/-- What a deed does to the queue is in order if it is no lease to a busy worker. -/
theorem Advances.of_performed {e' : Engine} {errands : List Errand} {a : Action} {r : a.Reply}
    (own : a.isForeign = false) (done : f.engine.perform a = .reply r e')
    (idle : ∀ worker batch visibility, a = .leaseJobs worker batch visibility → f.IsIdle worker) :
    Advances f ⟨e', errands⟩ := by
  refine ⟨Deed.made? ⟨a, r⟩, Engine.perform_made own done, fun c hc => ⟨fun id hid => ?_, ?_⟩⟩
  · rw [Deed.newId?_of_made hc] at hid
    cases hid
  · rintro worker batch visibility rfl
    exact idle worker batch visibility (isLease_of_made hc)

theorem OrderlyStep.advances (run : Steps (idle e) f) (h : OrderlyStep beside f g) :
    Advances f g := by
  cases h with
  | begin cfg worker job => exact .of_same rfl
  | @move n x x' e' _ hx move =>
    have hmem := List.mem_of_getElem? hx
    rcases move.cases with ⟨a, r, ans⟩ | ⟨rfl, -, -⟩
    · have allowed := (run.phaseMove hmem ans move.worker move.job).1
      rcases ans.source with ⟨-, rfl⟩ | ⟨own, done⟩
      · exact .of_same rfl
      · exact .of_performed own done fun _ _ _ ha => by subst ha; exact allowed.elim
    · exact .of_same rfl
  | loop _ idle _ own done =>
    exact .of_performed own done fun worker _ _ ha => idle worker (ha ▸ rfl)
  | enqueue j new =>
    exact .of_call (Engine.enqueue_effect j f.engine).2 (fun id hid => Option.some.inj hid ▸ new)
      fun _ _ _ h => by cases h
  | replay id actor new =>
    exact .of_call (Engine.replay_effect id actor f.engine).2
      (fun id hid => Option.some.inj hid ▸ new.1) fun _ _ _ h => by cases h
  | resolve id entry actor =>
    exact .of_call (Engine.resolve_effect id entry actor f.engine).2 (fun _ h => by cases h)
      fun _ _ _ h => by cases h
  | elsewhere kept => exact .of_same (kept.queue nofun)

/-- What becomes of a job that is known: it meets one of its fates, and it is leased only to a
worker that is idle. -/
theorem Advances.fate (h : Advances f g) (keyed : f.engine.queue.Keyed) {id : JobId}
    (known : ¬ f.IsNew id) :
    (f.engine.queue.get? id = none ∧ g.engine.queue.get? id = none) ∨
    ∃ j, f.engine.queue.get? id = some j ∧ (g.engine.queue.get? id = some j ∨
      ∃ c x, Queue.Fate f.engine.now id j c x (g.engine.queue.get? id) ∧
        ∀ worker batch visibility, c = .lease worker batch visibility → f.IsIdle worker) := by
  obtain ⟨c?, made, hc⟩ := h
  cases hj : f.engine.queue.get? id with
  | none =>
    refine Or.inl ⟨rfl, ?_⟩
    cases c? with
    | none => rw [show g.engine.queue = f.engine.queue from made, hj]
    | some c =>
      obtain ⟨x, ok⟩ := made
      by_contra hg
      obtain ⟨k, hk⟩ := Option.ne_none_iff_exists'.1 hg
      rcases (Queue.Call.change ok).stored keyed hk with ⟨j, hj'⟩ | ⟨hnew, -⟩
      · rw [hj] at hj'
        cases hj'
      · exact known ((hc c rfl).1 id hnew)
  | some j =>
    refine Or.inr ⟨j, rfl, ?_⟩
    cases c? with
    | none => exact Or.inl (by rw [show g.engine.queue = f.engine.queue from made, hj])
    | some c =>
      obtain ⟨x, ok⟩ := made
      refine Or.inr ⟨c, x, (Queue.Call.change ok).fate keyed hj fun hnew => ?_, (hc c rfl).2⟩
      exact known ((hc c rfl).1 id hnew)

/-- The job is not to be worked on. -/
def IsInactive (id : JobId) (f : Fleet) : Prop :=
  ∀ j, f.engine.queue.get? id = some j → j.isActive = false

/-- The job is leased to the worker. -/
def IsHeldBy (id : JobId) (worker : String) (f : Fleet) : Prop :=
  ∃ j, f.engine.queue.Holds id worker j

/-- A job that has ended is not taken up again. -/
theorem Advances.inactive (h : Advances f g) (keyed : f.engine.queue.Keyed) {id : JobId}
    (known : ¬ f.IsNew id) (inactive : f.IsInactive id) : g.IsInactive id := by
  intro k hk
  rcases h.fate keyed known with ⟨-, none_⟩ | ⟨j, hj, same | ⟨c, x, fate, -⟩⟩
  · rw [none_] at hk
    cases hk
  · rw [same] at hk
    exact inactive k (Option.some.inj hk ▸ hj)
  · exact fate.inactive (inactive j hj) k hk

/-- A worker that is busy holds only what it held before. -/
theorem Advances.held (h : Advances f g) (keyed : f.engine.queue.Keyed) {id : JobId}
    (known : ¬ f.IsNew id) {worker : String} (busy : ¬ f.IsIdle worker)
    (held : g.IsHeldBy id worker) : f.IsHeldBy id worker := by
  obtain ⟨k, hk, hs, hw⟩ := held
  rcases h.fate keyed known with ⟨-, none_⟩ | ⟨j, hj, same | ⟨c, x, fate, idle⟩⟩
  · rw [none_] at hk
    cases hk
  · rw [same] at hk
    cases hk
    exact ⟨k, hj, hs, hw⟩
  · rw [hk] at fate
    exact ⟨j, hj, fate.holds_before (fun batch visibility hc =>
      busy (idle worker batch visibility hc)) hs hw⟩

/-- Nobody holds a job that is not active. -/
theorem IsInactive.not_held {id : JobId} (h : f.IsInactive id) (worker : String) :
    ¬ f.IsHeldBy id worker := by
  rintro ⟨j, hj, hs, -⟩
  have := h j hj
  rw [Queue.isActive_of_leased hs] at this
  cases this

/-- One worker holds a job at a time. -/
theorem IsHeldBy.unique {id : JobId} {v w : String} (hv : f.IsHeldBy id v) (hw : f.IsHeldBy id w) :
    v = w := by
  obtain ⟨j, hj, -, hjv⟩ := hv
  obtain ⟨k, hk, -, hkw⟩ := hw
  rw [hj] at hk
  cases hk
  exact Option.some.inj (hjv.symm.trans hkw)

/-- A job that an errand has ended is not active from then on. -/
def Final (f : Fleet) : Prop := ∀ x ∈ f.errands, x.HasEnded → f.IsInactive x.job.id

theorem Final.step (final : Final f) (run : Steps (idle e) f) (keyed : f.engine.queue.Keyed)
    {beside : Action → Bool} (h : OrderlyStep beside f g) : Final g := by
  have advances := h.advances run
  have old : ∀ x ∈ f.errands, x.HasEnded → g.IsInactive x.job.id := fun x hx ended =>
    advances.inactive keyed (fun new => new.2 x hx rfl) (final x hx ended)
  intro y hy ended
  rcases h.step.errand_cases hy with hy | ⟨cfg, worker, job, rfl⟩ | ⟨x, hx, move⟩
  · exact old y hy ended
  · obtain ⟨d, hd, -⟩ := ended
    cases hd
  · rw [move.job]
    rcases move.cases with ⟨a, r, ans⟩ | ⟨-, hpast, -⟩
    · rw [Errand.HasEnded, ans.past, exists_mem_snoc, move.job] at ended
      rcases ended with ended | now
      · exact old x hx ended
      · rcases ans.source with ⟨foreign, -⟩ | ⟨own, done⟩
        · cases a <;> first | cases now | cases foreign
        · exact Engine.perform_ended own done keyed now
    · rw [Errand.HasEnded, hpast, move.job] at ended
      exact old x hx ended

theorem OrderlySteps.final (hq : e.queue = .empty) (hi : e.inbox = .empty)
    (run : OrderlySteps beside (idle e) f) : Final f := by
  induction run with
  | refl => exact fun x hx => by cases hx
  | tail before step ih =>
    have run := OrderlySteps.steps before
    exact ih.step run (Steps.accounted hq hi run).keyed step

/-- A worker has one errand on its way at most. -/
theorem OrderlySteps.running_unique (run : OrderlySteps beside (idle e) f) {m n : Nat}
    {x y : Errand} (hx : f.errands[m]? = some x) (hy : f.errands[n]? = some y)
    (hw : x.worker = y.worker) (rx : x.isRunning = true) (ry : y.isRunning = true) : m = n := by
  induction run generalizing m n x y with
  | refl => cases hx
  | @tail f g _ step ih =>
    cases step with
    | begin cfg worker job idle =>
      -- the new errand is the only one of its worker
      have cases : ∀ {k : Nat} {z : Errand},
          (f.errands ++ [.begin cfg worker job])[k]? = some z → z.isRunning = true →
          f.errands[k]? = some z ∧ z.worker ≠ worker ∨ k = f.errands.length ∧ z.worker = worker := by
        intro k z hz rz
        rw [List.getElem?_append] at hz
        split_ifs at hz with hk
        · refine Or.inl ⟨hz, fun he => ?_⟩
          rw [idle z (List.mem_of_getElem? hz) he] at rz
          cases rz
        · rw [List.getElem?_singleton] at hz
          split_ifs at hz
          cases hz
          exact Or.inr ⟨by omega, rfl⟩
      rcases cases hx rx with ⟨hx, nx⟩ | ⟨km, wx⟩ <;> rcases cases hy ry with ⟨hy, ny⟩ | ⟨kn, wy⟩
      · exact ih hx hy hw rx ry
      · exact absurd (hw.trans wy) nx
      · exact absurd (hw.symm.trans wx) ny
      · rw [km, kn]
    | @move k z z' _ _ hz move =>
      have before : ∀ {i : Nat} {u : Errand}, (f.errands.set k z')[i]? = some u →
          u.isRunning = true →
          ∃ v, f.errands[i]? = some v ∧ v.worker = u.worker ∧ v.isRunning = true := by
        intro i u hu ru
        rcases getElem?_set_cases hu with ⟨rfl, rfl⟩ | ⟨-, hu⟩
        · exact ⟨z, hz, move.worker.symm, move.isRunning ru⟩
        · exact ⟨u, hu, rfl, ru⟩
      obtain ⟨v, hv, wv, rv⟩ := before hx rx
      obtain ⟨u, hu, wu, ru⟩ := before hy ry
      exact ih hv hu (by rw [wv, wu, hw]) rv ru
    | _ => exact ih hx hy hw rx ry

end Fleet

end Courier
