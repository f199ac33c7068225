import Courier.Proofs.Fleet.Basic

/-! What one turn of an errand changes, and what goes on beside the errands. A rule that
`Worker.process` keeps is kept by every errand at every point of every run. -/

namespace Courier

open Plan

theorem Action.isForJob_of_attempts {a : Action} (h : a.store? = some .attempts) :
    a.isForJob = true := by
  cases a <;> first | rfl | cases h

/-- A turn that brings an answer: the next action of the plan, and where the answer came from. -/
structure Errand.Answered (e : Engine) (x : Errand) (e' : Engine) (x' : Errand) (a : Action)
    (r : a.Reply) : Prop where
  planned : ∃ next, x.stage.plan = .step a next ∧ x'.stage = .acting (next r)
  past : x'.past = x.past ++ [⟨a, r⟩]
  stopped : x'.isStopped = x.isStopped
  source : (a.isForeign = true ∧ e' = e) ∨ (a.isForeign = false ∧ e.perform a = .reply r e')

/-- What gets an answer is allowed by every rule that the plan keeps. -/
theorem Errand.Answered.allowed {e e' : Engine} {x x' : Errand} {a : Action} {r : a.Reply}
    (h : x.Answered e e' x' a r) {σ : Type} {R : Rule σ} {s : σ} (keeps : x.stage.plan.Keeps R s) :
    R.allows s a := by
  obtain ⟨next, hp, -⟩ := h.planned
  rw [hp] at keeps
  exact keeps.1

theorem Errand.Answered.mark {e e' : Engine} {x x' : Errand} {a : Action} {r : a.Reply}
    (h : x.Answered e e' x' a r) (key : String) :
    e'.attemptState? key = Deed.mark key ⟨a, r⟩ (e.attemptState? key) := by
  rcases h.source with ⟨foreign, rfl⟩ | ⟨own, done⟩
  · cases a <;> first | rfl | cases foreign
  · exact Engine.perform_mark own done key

theorem Errand.Answered.queue {e e' : Engine} {x x' : Errand} {a : Action} {r : a.Reply}
    (h : x.Answered e e' x' a r) : e.QueueMoves e' (Deed.ended? ⟨a, r⟩) := by
  rcases h.source with ⟨-, rfl⟩ | ⟨own, done⟩
  · exact Or.inl rfl
  · exact Engine.perform_queue own done

theorem Errand.Answered.seen {e e' : Engine} {x x' : Errand} {a : Action} {r : a.Reply}
    (h : x.Answered e e' x' a r) {id : JobId} (hid : id ∈ e'.inbox.seen) :
    id ∈ e.inbox.seen ∨ Deed.stored? ⟨a, r⟩ = some id := by
  rcases h.source with ⟨-, rfl⟩ | ⟨own, done⟩
  · exact Or.inl hid
  · exact Engine.perform_seen own done hid

theorem Errand.Move.job {e e' : Engine} {x x' : Errand} (h : x.Move e e' x') : x'.job = x.job := by
  cases h <;> rfl

theorem Errand.Move.worker {e e' : Engine} {x x' : Errand} (h : x.Move e e' x') :
    x'.worker = x.worker := by
  cases h <;> rfl

theorem Errand.isRunning_iff (x : Errand) :
    x.isRunning = true ↔ x.isStopped = false ∧ x.isDone = false := by
  simp [Errand.isRunning]

/-- An errand that is on its way was so before. -/
theorem Errand.Move.isRunning {e e' : Engine} {x x' : Errand} (h : x.Move e e' x')
    (hr : x'.isRunning = true) : x.isRunning = true := by
  rw [Errand.isRunning_iff] at hr ⊢
  cases h with
  | act own hx | draw _ own hx | supply _ own hx | depart own hx =>
    exact ⟨own, by rw [Errand.isDone, hx]⟩
  | arrive _ hx => exact ⟨hr.1, by rw [Errand.isDone, hx]⟩
  | stop => cases hr.1

/-- An errand does something only while it is on its way, but the adapter may answer later. -/
theorem Errand.Move.acting {e e' : Engine} {x x' : Errand} (h : x.Move e e' x') :
    x'.past = x.past ∨ x.isRunning = true ∨ x.stage.isCalling = true := by
  cases h with
  | act own hx | draw _ own hx | supply _ own hx | depart own hx =>
    exact Or.inr (Or.inl ((Errand.isRunning_iff x).2 ⟨own, by rw [Errand.isDone, hx]⟩))
  | arrive _ hx => exact Or.inr (Or.inr (by rw [hx]; rfl))
  | stop => exact Or.inl rfl

/-- A turn brings an answer, or it changes nothing but the stage and whether the errand goes on. -/
theorem Errand.Move.cases {e e' : Engine} {x x' : Errand} (h : x.Move e e' x') :
    (∃ a r, x.Answered e e' x' a r) ∨
      (e' = e ∧ x'.past = x.past ∧ x'.stage.plan = x.stage.plan) := by
  cases h with
  | @act a next r _ _ hs own done =>
    exact Or.inl ⟨a, r, ⟨⟨next, by rw [hs]; rfl, rfl⟩, rfl, rfl, Or.inr ⟨own, done⟩⟩⟩
  | @draw next unit _ hs =>
    exact Or.inl ⟨.drawUnit, unit, ⟨⟨next, by rw [hs]; rfl, rfl⟩, rfl, rfl, Or.inl ⟨rfl, rfl⟩⟩⟩
  | @supply i next r _ hs =>
    exact Or.inl ⟨.materialize i, r, ⟨⟨next, by rw [hs]; rfl, rfl⟩, rfl, rfl, Or.inl ⟨rfl, rfl⟩⟩⟩
  | depart _ hs => exact Or.inr ⟨rfl, rfl, by rw [hs]; rfl⟩
  | @arrive i next r hs =>
    exact Or.inl ⟨.callAdapter i, r, ⟨⟨next, by rw [hs]; rfl, rfl⟩, rfl, rfl, Or.inl ⟨rfl, rfl⟩⟩⟩
  | stop => exact Or.inr ⟨rfl, rfl, rfl⟩

namespace Engine

theorem deed_beside {a : Action} (forJob : a.isForJob = false) (r : a.Reply) :
    Deed.ended? ⟨a, r⟩ = none ∧ Deed.stored? ⟨a, r⟩ = none := by
  cases a <;> first | exact ⟨rfl, rfl⟩ | exact nomatch forJob

/-- Nothing that goes on beside the errands touches the log of attempts. -/
theorem Outside.attempts {e e' : Engine} (h : e.Outside e') : e'.attempts = e.attempts := by
  cases h with
  | @loop a r _ forJob own done =>
    refine (perform_keeps own done).attempts fun hs => ?_
    rw [Action.isForJob_of_attempts hs] at forJob
    cases forJob
  | enqueue j => exact (enqueue_effect j e).1.attempts nofun
  | replay id actor => exact (replay_effect id actor e).1.attempts nofun
  | resolve id entry actor => exact (resolve_effect id entry actor e).1.attempts nofun
  | elsewhere kept => exact kept.attempts nofun

/-- Nor does it end a job or give it an envelope. -/
theorem Outside.queue {e e' : Engine} (h : e.Outside e') : QueueMoves e e' none := by
  cases h with
  | @loop a r _ forJob own done =>
    have := perform_queue own done
    rwa [(deed_beside forJob r).1] at this
  | enqueue j => exact (enqueue_effect j e).2.elim .of_made .of_made
  | replay id actor => exact (replay_effect id actor e).2.elim .of_made .of_made
  | resolve id entry actor => exact (resolve_effect id entry actor e).2.elim .of_made .of_made
  | elsewhere kept => exact Or.inl (kept.queue nofun)

theorem Outside.seen {e e' : Engine} (h : e.Outside e') {id : JobId} (hid : id ∈ e'.inbox.seen) :
    id ∈ e.inbox.seen := by
  cases h with
  | @loop a r _ forJob own done =>
    rcases perform_seen own done hid with hid | hid
    · exact hid
    · rw [(deed_beside forJob r).2] at hid
      cases hid
  | enqueue j => rwa [(enqueue_effect j e).1.inbox nofun] at hid
  | replay id actor => rwa [(replay_effect id actor e).1.inbox nofun] at hid
  | resolve id entry actor => rwa [(resolve_effect id entry actor e).1.inbox nofun] at hid
  | elsewhere kept => rwa [kept.inbox nofun] at hid

/-- Nothing that goes on beside the errands brings an envelope. -/
theorem Outside.mem_envelopes {e e' : Engine} (h : e.Outside e') {y : Envelope}
    (hy : y ∈ e'.inbox.envelopes) : y ∈ e.inbox.envelopes := by
  cases h with
  | loop forJob own done =>
    rcases perform_envelopes own done hy with hy | rfl
    · exact hy
    · cases forJob
  | enqueue j => rwa [(enqueue_effect j e).1.inbox nofun] at hy
  | replay id actor => rwa [(replay_effect id actor e).1.inbox nofun] at hy
  | resolve id entry actor => rwa [(resolve_effect id entry actor e).1.inbox nofun] at hy
  | elsewhere kept => rwa [kept.inbox nofun] at hy

end Engine

namespace Fleet

variable {σ : Type} {R : Job → Rule σ} {s : σ} {e : Engine} {f g : Fleet}

/-- The state of a rule after all that an errand has done. -/
def standing (R : Job → Rule σ) (s : σ) (x : Errand) : σ := (R x.job).follow s x.past

theorem standing_answered {x x' : Errand} {e e' : Engine} {a : Action} {r : a.Reply}
    (h : x.Answered e e' x' a r) (hj : x'.job = x.job) :
    standing R s x' = (R x.job).after (standing R s x) ⟨a, r⟩ := by
  rw [standing, hj, h.past, Rule.follow_snoc]
  rfl

theorem mem_past_of_move {x x' : Errand} {e e' : Engine} (h : x.Move e e' x') {d : Deed}
    (hd : d ∈ x.past) : d ∈ x'.past := by
  rcases h.cases with ⟨a, r, ans⟩ | ⟨-, hpast, -⟩
  · rw [ans.past]
    exact List.mem_append_left _ hd
  · rwa [hpast]

/-- An errand in a list where one is exchanged: it is that one, or it is still there. -/
theorem mem_set_cases {l : List Errand} {n : Nat} {x y : Errand} (hx : l[n]? = some x) (x' : Errand)
    (hy : y ∈ l) : x' ∈ l.set n x' ∧ (y = x ∨ y ∈ l.set n x') := by
  have hn := (List.getElem?_eq_some_iff.1 hx).1
  refine ⟨List.mem_set hn x', ?_⟩
  obtain ⟨m, hm⟩ := List.mem_iff_getElem?.1 hy
  by_cases hmn : m = n
  · rw [hmn, hx] at hm
    exact Or.inl (Option.some.inj hm).symm
  · refine Or.inr (List.mem_of_getElem? (i := m) ?_)
    rw [List.getElem?_set_ne (Ne.symm hmn), hm]

/-- In a step an errand stays as it is, or it moves. -/
theorem Step.track (step : Step f g) {n : Nat} {x : Errand} (hx : f.errands[n]? = some x) :
    g.errands[n]? = some x ∨
      ∃ e' x', x.Move f.engine e' x' ∧ g = ⟨e', f.errands.set n x'⟩ ∧ g.errands[n]? = some x' := by
  obtain ⟨hn, -⟩ := List.getElem?_eq_some_iff.1 hx
  cases step with
  | begin cfg worker job => exact Or.inl (by rw [List.getElem?_append_left hn, hx])
  | @move m y y' e' hy move =>
    by_cases hm : m = n
    · subst hm
      rw [hx] at hy
      cases hy
      exact Or.inr ⟨e', y', move, rfl, List.getElem?_set_self hn⟩
    · exact Or.inl (by rw [List.getElem?_set_ne hm, hx])
  | outside => exact Or.inl hx

/-- An errand stays where it is, and what it has done stays done. -/
theorem Steps.track (steps : Steps f g) {n : Nat} {x : Errand} (hx : f.errands[n]? = some x) :
    ∃ x', g.errands[n]? = some x' ∧ ∀ d ∈ x.past, d ∈ x'.past := by
  induction steps with
  | refl => exact ⟨x, hx, fun _ hd => hd⟩
  | tail _ step ih =>
    obtain ⟨y, hy, past⟩ := ih
    rcases step.track hy with hy' | ⟨e', y', move, -, hy'⟩
    · exact ⟨y, hy', past⟩
    · exact ⟨y', hy', fun d hd => mem_past_of_move move (past d hd)⟩

/-- Whoever is there after a step was there before, or has only just begun, or has moved. -/
theorem Step.errand_cases (step : Step f g) {y : Errand} (hy : y ∈ g.errands) :
    y ∈ f.errands ∨ (∃ cfg worker job, y = .begin cfg worker job) ∨
      ∃ x ∈ f.errands, x.Move f.engine g.engine y := by
  cases step with
  | begin cfg worker job =>
    rcases List.mem_append.1 hy with hy | hy
    · exact Or.inl hy
    · exact Or.inr (Or.inl ⟨cfg, worker, job, List.mem_singleton.1 hy⟩)
  | move hx move =>
    rcases List.mem_or_eq_of_mem_set hy with hy | rfl
    · exact Or.inl hy
    · exact Or.inr (Or.inr ⟨_, List.mem_of_getElem? hx, move⟩)
  | outside => exact Or.inl hy

/-- Some errand has done such a thing for its job. -/
def Did (P : Job → Deed → Prop) (f : Fleet) : Prop := ∃ x ∈ f.errands, ∃ d ∈ x.past, P x.job d

instance (P : Job → Deed → Prop) [∀ j d, Decidable (P j d)] (f : Fleet) : Decidable (f.Did P) :=
  inferInstanceAs (Decidable (∃ x ∈ f.errands, ∃ d ∈ x.past, P x.job d))

/-- What has been done stays done. -/
theorem Did.step {P : Job → Deed → Prop} (h : f.Did P) (step : Step f g) : g.Did P := by
  obtain ⟨y, hy, d, hd, hP⟩ := h
  cases step with
  | begin cfg worker job => exact ⟨y, List.mem_append_left _ hy, d, hd, hP⟩
  | @move n x x' _ hx move =>
    obtain ⟨hx', rfl | hy⟩ := mem_set_cases hx x' hy
    · exact ⟨x', hx', d, mem_past_of_move move hd, move.job ▸ hP⟩
    · exact ⟨y, hy, d, hd, hP⟩
  | outside => exact ⟨y, hy, d, hd, hP⟩

/-- What has been done after an answered turn was done before, or is the turn. -/
theorem Did.of_answered {P : Job → Deed → Prop} {n : Nat} {x x' : Errand} {e' : Engine} {a : Action}
    {r : a.Reply} (h : Did P ⟨e', f.errands.set n x'⟩) (hx : f.errands[n]? = some x)
    (hj : x'.job = x.job) (ans : x.Answered f.engine e' x' a r) : f.Did P ∨ P x.job ⟨a, r⟩ := by
  obtain ⟨y, hy, d, hd, hP⟩ := h
  rcases List.mem_or_eq_of_mem_set hy with hy | rfl
  · exact Or.inl ⟨y, hy, d, hd, hP⟩
  · rw [hj] at hP
    rw [ans.past, List.mem_append, List.mem_singleton] at hd
    rcases hd with hd | rfl
    · exact Or.inl ⟨x, List.mem_of_getElem? hx, d, hd, hP⟩
    · exact Or.inr hP

theorem Did.of_same_past {P : Job → Deed → Prop} {n : Nat} {x x' : Errand} {e' : Engine}
    (h : Did P ⟨e', f.errands.set n x'⟩) (hx : f.errands[n]? = some x) (hj : x'.job = x.job)
    (hpast : x'.past = x.past) : f.Did P := by
  obtain ⟨y, hy, d, hd, hP⟩ := h
  rcases List.mem_or_eq_of_mem_set hy with hy | rfl
  · exact ⟨y, hy, d, hd, hP⟩
  · exact ⟨x, List.mem_of_getElem? hx, d, hpast ▸ hd, hj ▸ hP⟩

theorem Did.of_begun {P : Job → Deed → Prop} {cfg : Config} {worker : String} {job : Job}
    (h : Did P { f with errands := f.errands ++ [.begin cfg worker job] }) : f.Did P := by
  obtain ⟨y, hy, d, hd, hP⟩ := h
  rcases List.mem_append.1 hy with hy | hy
  · exact ⟨y, hy, d, hd, hP⟩
  · rw [List.mem_singleton.1 hy] at hd
    cases hd

/-- What holds of an errand that begins, and is kept by every answer to what its plan asks for, holds
of all errands of a run. -/
theorem Steps.errand_induction {P : String → Job → List Deed → Attempt Disposition → Prop}
    (begin : ∀ cfg worker job, P worker job [] (Worker.process cfg worker job))
    (answer : ∀ worker job past a next r, P worker job past (.step a next) →
      P worker job (past ++ [⟨a, r⟩]) (next r))
    (run : Steps (idle e) f) {x : Errand} (hx : x ∈ f.errands) :
    P x.worker x.job x.past x.stage.plan := by
  induction run generalizing x with
  | refl => cases hx
  | tail _ step ih =>
    rcases step.errand_cases hx with hx | ⟨cfg, worker, job, rfl⟩ | ⟨y, hy, move⟩
    · exact ih hx
    · exact begin cfg worker job
    · have before := ih hy
      rw [move.job, move.worker]
      rcases move.cases with ⟨a, r, h⟩ | ⟨-, hpast, hplan⟩
      · obtain ⟨next, hp, hn⟩ := h.planned
        rw [hp] at before
        rw [h.past, hn]
        exact answer _ _ _ _ _ r before
      · rw [hpast, hplan]
        exact before

/-- Every errand of a run goes on by the rule that processing keeps. -/
theorem Steps.keeps (hR : ∀ cfg worker job, (Worker.process cfg worker job).Keeps (R job) s)
    (run : Steps (idle e) f) {x : Errand} (hx : x ∈ f.errands) :
    x.stage.plan.Keeps (R x.job) (standing R s x) := by
  refine Steps.errand_induction (P := fun _ job past p => p.Keeps (R job) ((R job).follow s past))
    hR (fun _ job past a next r keeps => ?_) run hx
  rw [Rule.follow_snoc]
  exact keeps.2 r

/-- Every errand of a run goes on by what processing ensures. -/
theorem Steps.ensures {Q : Job → σ → Except Failure Disposition → Prop}
    (hR : ∀ cfg worker job, (Worker.process cfg worker job).Ensures (R job) (Q job) s)
    (run : Steps (idle e) f) {x : Errand} (hx : x ∈ f.errands) :
    x.stage.plan.Ensures (R x.job) (Q x.job) (standing R s x) := by
  refine Steps.errand_induction
    (P := fun _ job past p => p.Ensures (R job) (Q job) ((R job).follow s past))
    hR (fun _ job past a next r ensures => ?_) run hx
  rw [Rule.follow_snoc]
  exact ensures.2 r

/-- What holds of an errand that has done nothing, and is kept by every answer that the rule
allows to ask for, holds of all errands of a run. -/
theorem Steps.standing_induction {P : Job → List Deed → σ → Prop}
    (hR : ∀ cfg worker job, (Worker.process cfg worker job).Keeps (R job) s)
    (nil : ∀ j, P j [] s)
    (snoc : ∀ j past t a r, P j past t → (R j).allows t a →
      P j (past ++ [⟨a, r⟩]) ((R j).after t ⟨a, r⟩))
    (run : Steps (idle e) f) {x : Errand} (hx : x ∈ f.errands) :
    P x.job x.past (standing R s x) := by
  suffices h : x.stage.plan.Keeps (R x.job) (standing R s x) ∧ P x.job x.past (standing R s x) from
    h.2
  refine Steps.errand_induction (P := fun _ job past p =>
    p.Keeps (R job) ((R job).follow s past) ∧ P job past ((R job).follow s past))
    (fun cfg worker job => ⟨hR cfg worker job, nil job⟩) ?_ run hx
  rintro _ job past a next r ⟨keeps, hP⟩
  rw [Rule.follow_snoc]
  exact ⟨keeps.2 r, snoc job past _ a r hP keeps.1⟩

end Fleet

/-- The next turn of an errand where nothing is asked of it but to go on: without a materializer,
and with the adapter call left in flight. -/
def Errand.turn? (e : Engine) (x : Errand) : Option (Engine × Errand) :=
  if x.isStopped then none
  else
    match x.stage with
    | .acting (.step (.callAdapter i) next) => some (e, { x with stage := .calling i next })
    | .acting (.step (.materialize i) next) =>
      some (e, x.onward (.materialize i) .noMaterializer next)
    | .acting (.step .drawUnit next) => some (e, x.onward .drawUnit Engine.middleUnit next)
    | .acting (.step a next) =>
      match e.perform a with
      | .reply r e' => some (e', x.onward a r next)
      | .wait _ _ _ => none
    | _ => none

theorem Errand.turn?_move {e e' : Engine} {x x' : Errand} (h : x.turn? e = some (e', x')) :
    x.Move e e' x' := by
  unfold Errand.turn? at h
  split_ifs at h with hs
  have alive : x.isStopped = false := by simpa using hs
  split at h
  · rename_i hx
    cases h
    exact .depart alive hx
  · rename_i hx
    cases h
    exact .supply _ alive hx
  · rename_i hx
    cases h
    exact .draw _ alive hx
  · rename_i a next hc hm hd hx
    split at h
    · rename_i hr
      cases h
      refine .act alive hx ?_ hr
      cases a <;> first | rfl | exact (hc _ _ rfl .rfl).elim | exact (hm _ _ rfl .rfl).elim |
        exact (hd _ rfl .rfl).elim
    · cases h
  · cases h

/-- What a concrete run of a fleet is made of. -/
inductive Order where
  | enqueue (j : Job)
  | loop (a : Action)
  /-- Lets time pass. -/
  | sleep (ms : Nat)
  /-- Makes store calls fail. -/
  | disturb (c : StoreCall) (fs : List Fault)
  /-- A worker begins with a stored job. -/
  | begin (worker : String) (id : JobId)
  /-- An errand goes on for some turns. -/
  | turns (n count : Nat)
  | arrive (n : Nat) (r : AdapterReply)
  | stop (n : Nat)

namespace Fleet

/-- An errand goes on for at most so many turns. -/
def turns (n : Nat) : Nat → Fleet → Fleet
  | 0, f => f
  | count + 1, f =>
    match f.errands[n]?.bind fun x => x.turn? f.engine with
    | some (e', x') => turns n count ⟨e', f.errands.set n x'⟩
    | none => f

/-- A fleet that follows an order; what cannot be done is not done. -/
def follow (f : Fleet) : Order → Fleet
  | .enqueue j => { f with engine := (f.engine.enqueue j).2 }
  | .loop a =>
    if a.isForJob || a.isForeign then f
    else
      match f.engine.perform a with
      | .reply _ e' => { f with engine := e' }
      | .wait _ _ _ => f
  | .sleep ms => { f with engine := { f.engine with sleptMs := f.engine.sleptMs + ms } }
  | .disturb c fs =>
    { f with engine := { f.engine with surroundings := f.engine.surroundings.setFaults c fs } }
  | .begin worker id =>
    match f.engine.queue.get? id with
    | some j => { f with errands := f.errands ++ [.begin f.engine.config worker j] }
    | none => f
  | .turns n count => f.turns n count
  | .arrive n r =>
    match f.errands[n]? with
    | some x =>
      match x.stage with
      | .calling i next => { f with errands := f.errands.set n (x.onward (.callAdapter i) r next) }
      | .acting _ => f
    | none => f
  | .stop n =>
    match f.errands[n]? with
    | some x => { f with errands := f.errands.set n { x with isStopped := true } }
    | none => f

/-- Where an errand moves when an order is followed. -/
def MovesBy (f : Fleet) : Order → Fleet → Prop
  | .turns n count, g => ∃ k < count, g = f.turns n k
  | .arrive _ _, g => g = f
  | .stop _, g => g = f
  | _, _ => False

section

variable {R : Fleet → Fleet → Prop}

theorem turns_run (n count : Nat) (f : Fleet)
    (move : ∀ k < count, ∀ x x' e', (f.turns n k).errands[n]? = some x →
      x.Move (f.turns n k).engine e' x' → R (f.turns n k) ⟨e', (f.turns n k).errands.set n x'⟩) :
    Relation.ReflTransGen R f (f.turns n count) := by
  induction count generalizing f with
  | zero => exact .refl
  | succ count ih =>
    cases h : f.errands[n]?.bind fun x => x.turn? f.engine with
    | none =>
      simp only [turns, h]
      exact .refl
    | some moved =>
      obtain ⟨x, hx, turn⟩ := Option.bind_eq_some_iff.1 h
      have onward : ∀ k, f.turns n (k + 1) = turns n k ⟨moved.1, f.errands.set n moved.2⟩ := by
        intro k
        simp only [turns, h]
      have first : R f ⟨moved.1, f.errands.set n moved.2⟩ :=
        move 0 (Nat.succ_pos _) x _ _ hx (Errand.turn?_move turn)
      rw [onward]
      refine .head first (ih _ fun k hk => ?_)
      rw [← onward]
      exact move (k + 1) (Nat.succ_lt_succ hk)

/-- Following an order is a run of any relation that takes the steps the order is made of. -/
theorem follow_run (f : Fleet) (o : Order)
    (enqueue : ∀ j, o = .enqueue j → R f { f with engine := (f.engine.enqueue j).2 })
    (loop : ∀ a r e', o = .loop a → a.isForJob = false → a.isForeign = false →
      f.engine.perform a = .reply r e' → R f { f with engine := e' })
    (elsewhere : ∀ e', f.engine.KeptBut none e' → R f { f with engine := e' })
    (begin : ∀ cfg worker id job, o = .begin worker id →
      R f { f with errands := f.errands ++ [.begin cfg worker job] })
    (move : ∀ g n x x' e', f.MovesBy o g → g.errands[n]? = some x → x.Move g.engine e' x' →
      R g ⟨e', g.errands.set n x'⟩) :
    Relation.ReflTransGen R f (f.follow o) := by
  cases o with
  | enqueue j => exact .single (enqueue j rfl)
  | loop a =>
    dsimp only [follow]
    split_ifs with ha
    · exact .refl
    · rw [Bool.or_eq_true, not_or, Bool.not_eq_true, Bool.not_eq_true] at ha
      split
      · rename_i hr
        exact .single (loop a _ _ rfl ha.1 ha.2 hr)
      · exact .refl
  | sleep ms => exact .single (elsewhere _ ⟨fun _ => rfl, fun _ => rfl, fun _ => rfl⟩)
  | disturb c fs => exact .single (elsewhere _ ⟨fun _ => rfl, fun _ => rfl, fun _ => rfl⟩)
  | begin worker id =>
    dsimp only [follow]
    split
    · exact .single (begin _ _ _ _ rfl)
    · exact .refl
  | turns n count =>
    exact turns_run n count f fun k hk x x' e' => move _ n x x' e' ⟨k, hk, rfl⟩
  | arrive n r =>
    dsimp only [follow]
    split
    · rename_i hx
      split
      · rename_i hs
        exact .single (move f n _ _ _ rfl hx (.arrive r hs))
      · exact .refl
    · exact .refl
  | stop n =>
    dsimp only [follow]
    split
    · rename_i hx
      exact .single (move f n _ _ _ rfl hx .stop)
    · exact .refl

end

theorem follow_steps (f : Fleet) (o : Order) : Steps f (f.follow o) :=
  follow_run f o (fun j _ => .outside (.enqueue j))
    (fun _ _ _ _ forJob own done => .outside (.loop forJob own done))
    (fun _ kept => .outside (.elsewhere kept)) (fun cfg worker _ job _ => .begin cfg worker job)
    fun _ _ _ _ _ _ hx move => .move hx move

/-- Orders followed one after another are a run. -/
theorem foldl_follow_steps (f : Fleet) (os : List Order) : Steps f (os.foldl follow f) := by
  induction os generalizing f with
  | nil => exact .refl
  | cons o os ih => exact (follow_steps f o).trans (ih _)

end Fleet

end Courier
