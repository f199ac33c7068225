import Courier.Proofs.Fleet.Again

/-! What follows on a final failure. The worker that saw it clears the attempt and then acknowledges
the job. While it holds the lease nobody else can get as far as the adapter, and once the job is
acknowledged nobody will. If the acknowledgement is refused, the job has become somebody else's, and
nothing is left that tells of the failure. -/

namespace Courier

/-- Whether a deed is an adapter call that came back with a failure that no attempt will mend. -/
def Deed.isFinalFailure (d : Deed) : Bool :=
  d.outcome?.any fun o => !o.isSuccess && !o.isEnvironmentFailure

namespace Errand.Answered

variable {e e' : Engine} {x x' : Errand} {a : Action} {r : a.Reply}

/-- Apart from adapter calls, only an errand on its way gets answers. -/
theorem running (ans : x.Answered e e' x' a r) (move : x.Move e e' x')
    (noCall : Deed.isCall ⟨a, r⟩ = false) : x.isRunning = true := by
  rcases move.acting with hpast | running | calling
  · rw [ans.past] at hpast
    simp at hpast
  · exact running
  · obtain ⟨next, hp, -⟩ := ans.planned
    cases hs : x.stage with
    | acting p =>
      rw [hs] at calling
      cases calling
    | calling i k =>
      rw [hs] at hp
      cases hp
      cases noCall

theorem held (ans : x.Answered e e' x' a r) {c : Queue.Call} (made : Deed.made? ⟨a, r⟩ = some c)
    {id : JobId} {worker : String} (claim : c.claim? = some (id, worker)) :
    ∃ j, e.queue.Holds id worker j := by
  rcases ans.source with ⟨foreign, -⟩ | ⟨own, done⟩
  · cases a <;> first | cases made | cases foreign
  · exact Engine.perform_held own done made claim

theorem hasEnded_iff (ans : x.Answered e e' x' a r) (hj : x'.job = x.job) :
    x'.HasEnded ↔ x.HasEnded ∨ Deed.ended? ⟨a, r⟩ = some x.job.id := by
  rw [HasEnded, ans.past, exists_mem_snoc, hj]
  rfl

end Errand.Answered

namespace Fleet

variable {beside : Action → Bool} {e : Engine} {f g : Fleet} {intentId : String} {id : JobId}

/-- No errand on its way for the job is armed. -/
def NoneArmed (intentId : String) (id : JobId) (f : Fleet) : Prop :=
  ∀ x ∈ f.errands, x.IsFor intentId id → x.isRunning = true → x.phase ≠ .armed

theorem phase_of_past {x x' : Errand} (hw : x'.worker = x.worker) (hj : x'.job = x.job)
    (hpast : x'.past = x.past) : x'.phase = x.phase := by
  rw [Errand.phase, Errand.phase, hw, hj, hpast]

/-- An errand is armed only by renewing its lease. -/
theorem armed_of_move (run : Steps (idle e) f) {x x' : Errand} {e' : Engine} (hx : x ∈ f.errands)
    (move : x.Move f.engine e' x') (before : x.phase ≠ .armed) (armed : x'.phase = .armed) :
    x.phase = .begun ∧ f.IsHeldBy x.job.id x.worker := by
  rcases move.cases with ⟨a, r, ans⟩ | ⟨-, hpast, -⟩
  · have courseMove := (run.phaseMove hx ans move.worker move.job).2
    rw [armed] at courseMove
    generalize hs : x.phase = s at courseMove before
    generalize hs' : Phase.armed = s' at courseMove
    generalize hd : (⟨a, r⟩ : Deed) = d at courseMove
    cases courseMove with
    | kept => exact absurd hs'.symm before
    | armed =>
      cases hd
      exact ⟨rfl, ans.held rfl rfl⟩
    | called => exact absurd hs'.symm (Phase.ofOutcome_ne _ (by decide))
    | _ => cases hs'
  · rw [phase_of_past move.worker move.job hpast] at armed
    exact absurd armed before

/-- Where nobody who may arm itself holds the job, none is armed afterwards. -/
theorem NoneArmed.step (h : NoneArmed intentId id f) (run : Steps (idle e) f)
    (unheld : ∀ x ∈ f.errands, x.IsFor intentId id → x.phase = .begun → x.isRunning = true →
      ¬ f.IsHeldBy id x.worker) (step : Step f g) : NoneArmed intentId id g := by
  intro y hy forY running armed
  rcases step.errand_cases hy with hy | ⟨cfg, worker, job, rfl⟩ | ⟨x, hx, move⟩
  · exact h y hy forY running armed
  · cases armed
  · have running := move.isRunning running
    have forX : x.IsFor intentId id := by
      rw [Errand.IsFor, ← move.job]
      exact forY
    obtain ⟨begun, held⟩ := armed_of_move run hx move (h x hx forX running) armed
    rw [forX.2] at held
    exact unheld x hx forX begun running held

/-- An errand that is about to call the adapter, or calling it, is armed. -/
theorem Steps.armed_of_departing (run : Steps (idle e) f) {x : Errand} (hx : x ∈ f.errands)
    {i : Intent} {next : AdapterReply → Plan.Attempt Disposition}
    (hp : x.stage.plan = .step (.callAdapter i) next) : x.phase = .armed := by
  have keeps := (run.charted hx).1
  rw [hp] at keeps
  exact keeps.1

/-- Who has seen a failure has the attempt in its hands, and nobody else has begun one. -/
theorem Steps.alone_of_failed (run : Steps (idle e) f) {n : Nat} {x : Errand}
    (hx : f.errands[n]? = some x) (forX : x.IsFor intentId id) (failed : x.phase = .failed) :
    ∀ y ∈ f.errands, y.IsFor intentId id → y.phase ≠ .begun ∧ y.phase ≠ .armed := by
  intro y hy forY
  obtain ⟨m, hm⟩ := List.mem_iff_getElem?.1 hy
  have holdsX := (run.charted (List.mem_of_getElem? hx)).2.2.1
  rw [failed] at holdsX
  -- whoever has a grip on the key is `x` itself
  have same : y.grip = .holding → y.phase = .failed := by
    intro holdsY
    have hmn : m = n := (Steps.guarded run).alone m n y x hm hx (forY.attemptKey_eq forX)
      (by rw [holdsY]; nofun) (by rw [show x.grip = .holding from holdsX]; nofun)
    rw [hmn, hx] at hm
    rw [← Option.some.inj hm, failed]
  have holdsY := (run.charted hy).2.2.1
  constructor <;> intro hs <;> rw [hs] at holdsY same <;> cases same holdsY

/-- No errand on its way for the job is armed, and `calls` adapter calls have been started for it. -/
structure Still (intentId : String) (id : JobId) (calls : Nat) (f : Fleet) : Prop where
  noneArmed : NoneArmed intentId id f
  calls_eq : f.callsFor intentId id = calls

theorem Still.step {calls : Nat} (h : Still intentId id calls f) (run : Steps (idle e) f)
    (unheld : ∀ x ∈ f.errands, x.IsFor intentId id → x.phase = .begun → x.isRunning = true →
      ¬ f.IsHeldBy id x.worker) (step : OrderlyStep beside f g) : Still intentId id calls g where
  noneArmed := h.noneArmed.step run unheld step.step
  calls_eq := (step.step.callsFor_eq fun x hx forX running _ _ hp =>
    h.noneArmed x hx forX running (run.armed_of_departing hx hp)).trans h.calls_eq

/-- How things stand for the job after errand `x` has seen a final failure, when `calls` adapter
calls had been started. -/
inductive Aftermath (intentId : String) (id : JobId) (calls : Nat) (f : Fleet) (x : Errand) : Prop
    where
  /-- It has the attempt in its hands still. -/
  | failed : x.phase = .failed → f.callsFor intentId id = calls → Aftermath intentId id calls f x
  /-- It is to acknowledge the job; as long as it holds it, nothing happens. -/
  | cleared : x.phase = .cleared →
      (x.isRunning = true → f.IsHeldBy id x.worker → Still intentId id calls f) →
      Aftermath intentId id calls f x
  | ended : x.HasEnded → Still intentId id calls f → Aftermath intentId id calls f x
  /-- The acknowledgement was refused, or a store failed. -/
  | lost : ¬ x.HasEnded → x.phase = .refused ∨ x.phase = .broken →
      Aftermath intentId id calls f x

section

variable {calls n : Nat} {x x' : Errand}

theorem Still.step_of_failed (run : Steps (idle e) f) (hx : f.errands[n]? = some x)
    (forX : x.IsFor intentId id) (failed : x.phase = .failed)
    (same : f.callsFor intentId id = calls) (step : OrderlyStep beside f g) :
    Still intentId id calls g := by
  have alone := run.alone_of_failed hx forX failed
  have still : Still intentId id calls f := ⟨fun y hy forY _ => (alone y hy forY).2, same⟩
  exact still.step run (fun y hy forY begun _ _ => (alone y hy forY).1 begun) step

/-- As long as the errand holds the job, nobody else gets as far as the adapter. -/
theorem Still.step_of_cleared (run : OrderlySteps beside (idle e) f) (hx : f.errands[n]? = some x)
    (cleared : x.phase = .cleared) (running : x.isRunning = true) (still : Still intentId id calls f)
    (held : f.IsHeldBy id x.worker) (step : OrderlyStep beside f g) :
    Still intentId id calls g := by
  refine still.step (OrderlySteps.steps run) (fun y hy forY begun runs holds => ?_) step
  obtain ⟨m, hm⟩ := List.mem_iff_getElem?.1 hy
  have same := run.running_unique hm hx (holds.unique held) runs running
  rw [same, hx] at hm
  rw [← Option.some.inj hm, cleared] at begun
  cases begun

theorem Still.step_of_inactive (run : Steps (idle e) f) (inactive : f.IsInactive id)
    (still : Still intentId id calls f) (step : OrderlyStep beside f g) :
    Still intentId id calls g :=
  still.step run (fun y _ _ _ _ => inactive.not_held y.worker) step

/-- What a busy worker holds after a step it has held before. -/
theorem OrderlyStep.held (step : OrderlyStep beside f g) (run : Steps (idle e) f)
    (keyed : f.engine.queue.Keyed) (hx : x ∈ f.errands) (hid : x.job.id = id)
    (running : x.isRunning = true) (held : g.IsHeldBy id x.worker) : f.IsHeldBy id x.worker := by
  refine (step.advances run).held keyed (fun new => new.2 x hx hid) (fun rest => ?_) held
  rw [rest x hx rfl] at running
  cases running

/-- A step in which the errand gets no answer leaves it in the aftermath. -/
theorem Aftermath.of_same_past (h : Aftermath intentId id calls f x)
    (run : OrderlySteps beside (idle e) f) (keyed : f.engine.queue.Keyed) (final : f.Final)
    (hx : f.errands[n]? = some x) (forX : x.IsFor intentId id) (step : OrderlyStep beside f g)
    (hw : x'.worker = x.worker) (hj : x'.job = x.job) (hpast : x'.past = x.past)
    (hrun : x'.isRunning = true → x.isRunning = true) : Aftermath intentId id calls g x' := by
  have steps := OrderlySteps.steps run
  have hmem := List.mem_of_getElem? hx
  have phase := phase_of_past hw hj hpast
  have hasEnded : x'.HasEnded ↔ x.HasEnded := by rw [Errand.HasEnded, Errand.HasEnded, hpast, hj]
  cases h with
  | failed hs same =>
    exact .failed (phase.trans hs) (Still.step_of_failed steps hx forX hs same step).calls_eq
  | cleared hs still =>
    refine .cleared (phase.trans hs) fun running holds => ?_
    have holds := step.held steps keyed hmem forX.2 (hrun running) (hw ▸ holds)
    exact Still.step_of_cleared run hx hs (hrun running) (still (hrun running) holds) holds step
  | ended he still =>
    have inactive : f.IsInactive id := forX.2 ▸ final x hmem he
    exact .ended (hasEnded.2 he) (Still.step_of_inactive steps inactive still step)
  | lost he hs => exact .lost (fun hn => he (hasEnded.1 hn)) (phase.symm ▸ hs)

/-- So does a step in which it gets one. -/
theorem Aftermath.of_answered (h : Aftermath intentId id calls f x)
    (run : OrderlySteps beside (idle e) f) (keyed : f.engine.queue.Keyed) (final : f.Final)
    (hx : f.errands[n]? = some x) (forX : x.IsFor intentId id) (step : OrderlyStep beside f g)
    {a : Action} {r : a.Reply} (move : x.Move f.engine g.engine x')
    (ans : x.Answered f.engine g.engine x' a r) : Aftermath intentId id calls g x' := by
  have steps := OrderlySteps.steps run
  have hmem := List.mem_of_getElem? hx
  have hasEnded := ans.hasEnded_iff move.job
  have charted := (steps.charted hmem).2.1
  have courseMove := (steps.phaseMove hmem ans move.worker move.job).2
  -- an answer that ends nothing leaves the errand without an end if it had none
  have notEnded : ¬ x.HasEnded → Deed.ended? ⟨a, r⟩ = none → ¬ x'.HasEnded := by
    intro he hn ended
    rw [hasEnded, hn] at ended
    simp [he] at ended
  have early : x.phase = .failed ∨ x.phase = .cleared → ¬ x.HasEnded := by
    intro hs he
    rcases charted.ended he with h | h | h <;> simp [h] at hs
  cases h with
  | failed hs same =>
    have still := Still.step_of_failed steps hx forX hs same step
    rw [hs] at courseMove
    obtain ⟨hs', hn⟩ := courseMove.of_failed
    rcases hs' with hs' | hs' | hs'
    · exact .failed hs' still.calls_eq
    · exact .cleared hs' fun _ _ => still
    · exact .lost (notEnded (early (Or.inl hs)) hn) (Or.inr hs')
  | cleared hs still =>
    rw [hs] at courseMove
    rcases courseMove.of_cleared with ⟨hs', -⟩ | hd | ⟨hs', hn⟩
    · refine .cleared hs' fun running holds => ?_
      have running := move.isRunning running
      have holds := step.held steps keyed hmem forX.2 running (move.worker ▸ holds)
      exact Still.step_of_cleared run hx hs running (still running holds) holds step
    · cases hd
      have running := ans.running move rfl
      have holds : f.IsHeldBy id x.worker := forX.2 ▸ ans.held rfl rfl
      exact .ended (hasEnded.2 (Or.inr rfl))
        (Still.step_of_cleared run hx hs running (still running holds) holds step)
    · exact .lost (notEnded (early (Or.inr hs)) hn) hs'
  | ended he still =>
    have inactive : f.IsInactive id := forX.2 ▸ final x hmem he
    exact .ended (hasEnded.2 (Or.inl he)) (Still.step_of_inactive steps inactive still step)
  | lost he hs =>
    obtain ⟨hs', hn⟩ := courseMove.of_lost hs
    exact .lost (notEnded he hn) hs'

theorem Aftermath.step (h : Aftermath intentId id calls f x)
    (run : OrderlySteps beside (idle e) f) (keyed : f.engine.queue.Keyed) (final : f.Final)
    (hx : f.errands[n]? = some x) (forX : x.IsFor intentId id) (step : OrderlyStep beside f g) :
    ∃ x', g.errands[n]? = some x' ∧ x'.IsFor intentId id ∧ Aftermath intentId id calls g x' := by
  rcases step.step.track hx with hx' | ⟨e', x', move, rfl, hx'⟩
  · exact ⟨x, hx', forX, h.of_same_past run keyed final hx forX step rfl rfl rfl fun hr => hr⟩
  · have forX' : x'.IsFor intentId id := by
      rw [Errand.IsFor, move.job]
      exact forX
    refine ⟨x', hx', forX', ?_⟩
    rcases move.cases with ⟨a, r, ans⟩ | ⟨-, hpast, -⟩
    · exact h.of_answered run keyed final hx forX step move ans
    · exact h.of_same_past run keyed final hx forX step move.worker move.job hpast move.isRunning

theorem Aftermath.steps (h : Aftermath intentId id calls f x) (hq : e.queue = .empty)
    (hi : e.inbox = .empty) (run : OrderlySteps beside (idle e) f) (hx : f.errands[n]? = some x)
    (forX : x.IsFor intentId id) (after : OrderlySteps beside f g) :
    ∃ x', g.errands[n]? = some x' ∧ x'.IsFor intentId id ∧ Aftermath intentId id calls g x' := by
  induction after with
  | refl => exact ⟨x, hx, forX, h⟩
  | tail before step ih =>
    obtain ⟨y, hy, forY, h⟩ := ih
    have whole : OrderlySteps beside (idle e) _ := run.trans before
    exact h.step whole (Steps.accounted hq hi (OrderlySteps.steps whole)).keyed
      (OrderlySteps.final hq hi whole) hy forY step

end

/-- Once some errand has ended the job, nothing more happens. -/
theorem Still.steps {calls : Nat} (still : Still intentId id calls f) (hq : e.queue = .empty)
    (hi : e.inbox = .empty) (run : OrderlySteps beside (idle e) f)
    (ended : f.Did fun k d => k.id = id ∧ d.ended? = some id) (after : OrderlySteps beside f g) :
    Still intentId id calls g := by
  suffices h : Still intentId id calls g ∧ g.Did fun k d => k.id = id ∧ d.ended? = some id from h.1
  induction after with
  | refl => exact ⟨still, ended⟩
  | tail before step ih =>
    have whole : OrderlySteps beside (idle e) _ := run.trans before
    obtain ⟨x, hx, d, hd, hid, hends⟩ := ih.2
    have inactive := OrderlySteps.final hq hi whole x hx ⟨d, hd, hid ▸ hends⟩
    exact ⟨ih.1.step_of_inactive (OrderlySteps.steps whole) (hid ▸ inactive) step,
      ih.2.step step.step⟩

/-- The attempt under the key is in the log, and nobody is on the way who could take it out. -/
structure Barred (key : String) (f : Fleet) : Prop where
  logged : f.engine.attemptState? key ≠ none
  free : ∀ x ∈ f.errands, x.job.attemptKey = key → x.isRunning = true → x.grip = .free

/-- No answer unbars a key: who is on the way has no grip on it and does not get one. -/
theorem Barred.answered {key : String} (h : Barred key f) (keeping : Keeping f) {x x' : Errand}
    (hx : x ∈ f.errands) {e' : Engine} (move : x.Move f.engine e' x') {a : Action} {r : a.Reply}
    (ans : x.Answered f.engine e' x' a r) :
    e'.attemptState? key ≠ none ∧
      (x'.job.attemptKey = key → x'.isRunning = true → x'.grip = .free) := by
  rw [ans.mark, move.job]
  by_cases running : x.isRunning = true
  · have gripMove := ans.gripMove move.job (keeping x hx)
    have free : key = x.job.attemptKey → x.grip = .free := fun hk => h.free x hx hk.symm running
    have notFirst : (⟨a, r⟩ : Deed) = ⟨.beginAttempt x.job.attemptKey, .ok .first⟩ →
        key ≠ x.job.attemptKey := fun hd hk => h.logged (hk ▸ ans.first hd)
    refine ⟨gripMove.mark_logged free notFirst h.logged, fun hk _ => ?_⟩
    by_contra hg
    rcases gripMove.free_or_first hg with hg | hd
    · exact hg (free hk.symm)
    · exact notFirst hd hk.symm
  · -- nothing reaches an errand at rest but an answer of the adapter
    have call : Deed.isCall ⟨a, r⟩ = true := by
      by_contra hc
      exact running (ans.running move (by simpa using hc))
    refine ⟨?_, fun _ runs => absurd (move.isRunning runs) running⟩
    cases a with
    | callAdapter => exact h.logged
    | _ => cases call

theorem Barred.step {key : String} (h : Barred key f) (keeping : Keeping f) (step : Step f g) :
    Barred key g where
  logged := by
    cases step with
    | begin => exact h.logged
    | move hx move =>
      rcases move.cases with ⟨a, r, ans⟩ | ⟨rfl, -, -⟩
      · exact (h.answered keeping (List.mem_of_getElem? hx) move ans).1
      · exact h.logged
    | outside out =>
      rw [Engine.attemptState?, out.attempts]
      exact h.logged
  free y hy hk running := by
    rcases step.errand_cases hy with hy | ⟨cfg, worker, job, rfl⟩ | ⟨x, hx, move⟩
    · exact h.free y hy hk running
    · rfl
    · rcases move.cases with ⟨a, r, ans⟩ | ⟨-, hpast, -⟩
      · exact (h.answered keeping hx move ans).2 hk running
      · rw [grip_of_past move.job hpast]
        exact h.free x hx (move.job ▸ hk) (move.isRunning running)

theorem Barred.steps {key : String} (h : Barred key f) (run : Steps (idle e) f) (after : Steps f g)
    (hkey : ∀ x : Errand, x.IsFor intentId id → x.job.attemptKey = key) :
    g.callsFor intentId id = f.callsFor intentId id := by
  suffices all : Barred key g ∧ g.callsFor intentId id = f.callsFor intentId id from all.2
  induction after with
  | refl => exact ⟨h, rfl⟩
  | @tail b c before step ih =>
    have keeping := Steps.keeping (run.trans before)
    refine ⟨ih.1.step keeping step,
      (step.callsFor_eq fun x hx forX running i next hp => ?_).trans ih.2⟩
    have keeps := keeping x hx
    rw [hp, ih.1.free x hx (hkey x forX) running] at keeps
    cases keeps.1

theorem failed_of_last {x : Errand} (last : x.past.getLast?.any Deed.isFinalFailure = true) :
    x.phase = .failed := by
  obtain ⟨d, hd, final⟩ := (Option.any_eq_true _ _).1 last
  obtain ⟨past, hpast⟩ := List.getLast?_eq_some_iff.1 hd
  rw [Errand.phase, hpast, Rule.follow_snoc]
  obtain ⟨a, r⟩ := d
  cases a with
  | callAdapter i =>
    have outcome : (!(r.toOutcome i.platform).isSuccess &&
      !(r.toOutcome i.platform).isEnvironmentFailure) = true := final
    simp only [Bool.and_eq_true, Bool.not_eq_true'] at outcome
    simp [course, Phase.ofOutcome, outcome]
  | _ => cases final

/-- With no errand on its way under its key, a job may come to another adapter call exactly if it
waits or is leased and its attempt is not in the log. -/
theorem OrderlySteps.at_rest_iff (hq : e.queue = .empty) (hi : e.inbox = .empty)
    (run : OrderlySteps (fun _ => true) (idle e) f) {j : Job}
    (stored : f.engine.queue.get? id = some j)
    (rest : ∀ x ∈ f.errands, x.job.attemptKey = j.attemptKey → x.isRunning = false)
    (draws : f.DrawsNew) :
    (∀ g, OrderlySteps (fun _ => true) f g →
      g.callsFor j.intentId id = f.callsFor j.intentId id) ↔
      j.isActive = false ∨ f.engine.attemptState? j.attemptKey ≠ none := by
  have steps := OrderlySteps.steps run
  have accounted := Steps.accounted hq hi steps
  have hid : j.id = id := accounted.keyed id j stored
  have hkey : ∀ x : Errand, x.IsFor j.intentId id → x.job.attemptKey = j.attemptKey := by
    rintro x ⟨hintent, hx⟩
    unfold Job.intentId at hintent
    rw [Job.attemptKey, Job.attemptKey, hintent, hx, hid]
  constructor
  · intro never
    by_contra hn
    rw [not_or, Bool.not_eq_false, not_not] at hn
    obtain ⟨g, after, more⟩ := exists_again accounted.keyed (steps.expiring hq hi) stored hn.1 hn.2
      draws
    rw [never g after] at more
    exact lt_irrefl _ more
  · rintro (inactive | logged) g after
    · have still : Still j.intentId id (f.callsFor j.intentId id) f := by
        refine ⟨fun x hx forX running => ?_, rfl⟩
        rw [rest x hx (hkey x forX)] at running
        cases running
      exact (still.steps hq hi run (accounted.ended id j stored inactive) after).calls_eq
    · have barred : Barred j.attemptKey f := by
        refine ⟨logged, fun x hx hk running => ?_⟩
        rw [rest x hx hk] at running
        cases running
      exact barred.steps steps (OrderlySteps.steps after) hkey

/-- A failure that no attempt will mend. Once the worker that saw it has ended the job, the adapter
has not been called again and never will be. With everything at rest, it will never be called again
exactly if the job has ended or its attempt is still in the log. -/
theorem OrderlySteps.final_failure_iff {config : Config} {start : Timestamp}
    {surroundings : Surroundings}
    (run : OrderlySteps (fun _ => true) (idle (.create config start surroundings)) f) {n : Nat}
    {x x' : Errand} (hx : f.errands[n]? = some x)
    (last : x.past.getLast?.any Deed.isFinalFailure = true)
    (after : OrderlySteps (fun _ => true) f g) (hx' : g.errands[n]? = some x') :
    (x'.HasEnded → ∀ h, OrderlySteps (fun _ => true) g h →
      h.callsFor x.job.intentId x.job.id = f.callsFor x.job.intentId x.job.id) ∧
    (∀ j, g.engine.queue.get? x.job.id = some j →
      (∀ y ∈ g.errands, y.job.attemptKey = j.attemptKey → y.isRunning = false) → g.DrawsNew →
      ((∀ h, OrderlySteps (fun _ => true) g h →
        h.callsFor j.intentId x.job.id = g.callsFor j.intentId x.job.id) ↔
        j.isActive = false ∨ g.engine.attemptState? j.attemptKey ≠ none)) := by
  have whole : OrderlySteps (fun _ => true) (idle (.create config start surroundings)) g :=
    run.trans after
  constructor
  · intro ended h later
    have failed : Aftermath x.job.intentId x.job.id (f.callsFor x.job.intentId x.job.id) f x :=
      .failed (failed_of_last last) rfl
    obtain ⟨y, hy, forY, aftermath⟩ := failed.steps rfl rfl run hx ⟨rfl, rfl⟩ after
    obtain rfl : y = x' := Option.some.inj (hy.symm.trans hx')
    have hmem := List.mem_of_getElem? hx'
    have phase := ((OrderlySteps.steps whole).charted hmem).2.1.ended ended
    have still : Still x.job.intentId x.job.id (f.callsFor x.job.intentId x.job.id) g := by
      cases aftermath with
      | failed hs | cleared hs =>
        rw [hs] at phase
        simp [Phase.Ended] at phase
      | ended _ still => exact still
      | lost he => exact absurd ended he
    obtain ⟨d, hd, hends⟩ := ended
    exact (still.steps rfl rfl whole ⟨y, hmem, d, hd, forY.2, forY.2 ▸ hends⟩ later).calls_eq
  · exact fun j stored rest draws => OrderlySteps.at_rest_iff rfl rfl whole stored rest draws

/-- A worker gets as far as the answer of the adapter, a final failure, after other things have
happened meanwhile. -/
def failing (meanwhile : List Order) : List Order :=
  [.enqueue (Queue.sampleJob 1 "post-1"), .loop (.leaseJobs "w-1" 1 (.ofMillis 1000)),
    .begin "w-1" ⟨.ofNat 1⟩, .turns 0 20] ++ meanwhile ++ [.arrive 0 (.outcome (.fault "boom"))]

/-- The lease is kept. -/
def failedWorker : Fleet := (failing []).foldl follow (idle (.create .usual .epoch .quiet))

/-- The lease runs out while the adapter works, and is taken back. -/
def expiredWorker : Fleet :=
  (failing [.sleep 60000, .loop .reclaimJobs]).foldl follow (idle (.create .usual .epoch .quiet))

theorem failedWorker_run :
    OrderlySteps (fun _ => true) (idle (.create .usual .epoch .quiet)) failedWorker :=
  AdmitsAll.foldl_follow (by decide +kernel)

theorem expiredWorker_run :
    OrderlySteps (fun _ => true) (idle (.create .usual .epoch .quiet)) expiredWorker :=
  AdmitsAll.foldl_follow (by decide +kernel)

theorem final_failure_iff_failedWorker :
    (∀ h, OrderlySteps (fun _ => true) (failedWorker.turns 0 20) h →
      h.callsFor "post-1" ⟨.ofNat 1⟩ = 1) ∧
    ∃ h, OrderlySteps (fun _ => true) (expiredWorker.turns 0 20) h ∧
      h.callsFor "post-1" ⟨.ofNat 1⟩ ≠ 1 := by
  -- the errand before and after its last turns, first with the lease kept, then without
  constructor
  · obtain ⟨x, hx, last, hintent, hid⟩ : ∃ x ∈ failedWorker.errands[0]?,
        x.past.getLast?.any Deed.isFinalFailure = true ∧ x.job.intentId = "post-1" ∧
        x.job.id = ⟨.ofNat 1⟩ := by
      decide +kernel
    obtain ⟨x', hx', ended⟩ : ∃ x' ∈ (failedWorker.turns 0 20).errands[0]?, x'.HasEnded := by
      decide +kernel
    have admitted : Admits (fun _ => true) failedWorker (.turns 0 20) := by decide +kernel
    have after : OrderlySteps (fun _ => true) failedWorker (failedWorker.turns 0 20) :=
      admitted.follow
    intro h later
    have never := (failedWorker_run.final_failure_iff hx last after hx').1 ended h later
    rw [hintent, hid] at never
    rw [never]
    decide +kernel
  · obtain ⟨x, hx, last, hid⟩ : ∃ x ∈ expiredWorker.errands[0]?,
        x.past.getLast?.any Deed.isFinalFailure = true ∧ x.job.id = ⟨.ofNat 1⟩ := by
      decide +kernel
    obtain ⟨x', hx', rest⟩ : ∃ x' ∈ (expiredWorker.turns 0 20).errands[0]?,
        ∀ y ∈ (expiredWorker.turns 0 20).errands, y.isRunning = false := by
      decide +kernel
    obtain ⟨j, stored, active, hintent, free⟩ :
        ∃ j ∈ (expiredWorker.turns 0 20).engine.queue.get? ⟨.ofNat 1⟩,
        j.isActive = true ∧ j.intentId = "post-1" ∧
        (expiredWorker.turns 0 20).engine.attemptState? j.attemptKey = none := by
      decide +kernel
    have admitted : Admits (fun _ => true) expiredWorker (.turns 0 20) := by decide +kernel
    have after : OrderlySteps (fun _ => true) expiredWorker (expiredWorker.turns 0 20) :=
      admitted.follow
    have ever := ((expiredWorker_run.final_failure_iff hx last after hx').2 j (hid ▸ stored)
      (fun y hy _ => rest y hy) (by decide +kernel)).not.2 (by simp [active, free])
    have once : (expiredWorker.turns 0 20).callsFor "post-1" ⟨.ofNat 1⟩ = 1 := by decide +kernel
    rw [hid, hintent, once] at ever
    simpa using ever

/-- The worker whose lease was lost clears the attempt and is refused the acknowledgement; the next
one finds nothing in the log and calls the adapter again. -/
def callingAgain : List Order :=
  [.turns 0 20, .loop (.leaseJobs "w-2" 1 (.ofMillis 1000)), .begin "w-2" ⟨.ofNat 1⟩, .turns 1 20]

theorem exists_call_after_final_failure :
    ∃ f g, OrderlySteps (fun _ => true) (idle (.create .usual .epoch .quiet)) f ∧
      (∃ x ∈ f.errands, x.past.getLast?.any Deed.isFinalFailure = true) ∧
      OrderlySteps (fun _ => true) f g ∧ g.engine.surroundings.faults.isEmpty = true ∧
      (∀ x ∈ g.errands, ∀ d ∈ x.past, d.isBroken = false) ∧
      f.callsFor "post-1" ⟨.ofNat 1⟩ = 1 ∧ g.callsFor "post-1" ⟨.ofNat 1⟩ = 2 := by
  have again : AdmitsAll (fun _ => true) expiredWorker callingAgain := by decide +kernel
  exact ⟨expiredWorker, callingAgain.foldl follow expiredWorker, expiredWorker_run,
    by decide +kernel, again.foldl_follow, by decide +kernel, by decide +kernel, by decide +kernel,
    by decide +kernel⟩

end Fleet

end Courier
