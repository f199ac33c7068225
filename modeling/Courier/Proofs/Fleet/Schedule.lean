import Courier.Proofs.Fleet.Onward

/-! The schedule runs a fleet. Whatever its tasks and its caller do, one turn after another and in
whatever order, is a run of errands with what goes on beside them; a task that waits inside of
`Worker.process` holds its errand meanwhile. -/

namespace Courier

open Fleet

variable {e : Engine} {f g : Fleet} {own own' : List Nat}

namespace Schedule

def Pause.Fits (f : Fleet) (own : List Nat) : Pause → Prop
  | .ended => True
  | .waiting _ resume => Asleep f own resume

/-- A turn of a task is a run of the fleet. -/
theorem runLoop_onward (l : Loop) (fuel : Nat) {p : Plan Round} (run : Steps (idle e) f)
    (h : Engaged f own p) :
    ∃ g own', Onward own own' f g ∧ g.engine = (runLoop l fuel p f.engine).2 ∧
      (runLoop l fuel p f.engine).1.Fits g own' := by
  induction fuel generalizing f own p with
  | zero => exact ⟨f, own, .refl _ _, rfl, trivial⟩
  | succ fuel ih =>
    cases p with
    | done r =>
      cases r with
      | again =>
        obtain ⟨g, own', rest, hg⟩ := ih run (.free (l.made_round f.engine.config))
        exact ⟨g, own', rest.widen (List.nil_subset _), hg⟩
      | ended | crashed => exact ⟨f, own, .refl _ _, rfl, trivial⟩
    | step a next =>
      obtain ⟨f₁, own₁, begun, he, ready⟩ := h.ready
      rw [← he]
      cases hp : f₁.engine.perform a with
      | reply r e' =>
        obtain ⟨f₂, own₂, replied, rfl, engaged⟩ := ready.reply hp
        obtain ⟨g, own', rest, hg⟩ := ih (run.trans (begun.trans replied).steps) engaged
        simp only [runLoop, hp]
        exact ⟨g, own', (begun.trans replied).trans rest, hg⟩
      | wait w resume e' =>
        obtain ⟨f₂, waited, rfl, asleep⟩ := ready.wait (run.trans begun.steps) hp
        simp only [runLoop, hp]
        cases hw : w.over? f₂.engine with
        | none => exact ⟨f₂, own₁, begun.trans waited, rfl, asleep⟩
        | some woken =>
          obtain ⟨waking, e'⟩ := woken
          obtain ⟨f₃, own₃, woke, he', engaged⟩ := asleep.wake hw
          have whole := (begun.trans waited).trans woke
          obtain ⟨g, own', rest, hg⟩ := ih (run.trans whole.steps) engaged
          rw [he'] at hg
          exact ⟨g, own', whole.trans rest, hg⟩

end Schedule

namespace Progress

def Fits (f : Fleet) (own : List Nat) : Progress → Prop
  | .ready p => Engaged f own p
  | .waiting _ resume => Asleep f own resume

theorem Fits.range {p : Progress} (h : p.Fits f own) : ∀ m ∈ own, m < f.errands.length := by
  cases p with
  | ready => exact Engaged.range h
  | waiting => exact Asleep.range h

theorem Fits.stay {p : Progress} (h : p.Fits f own) (steps : Steps f g)
    (held : ∀ m ∈ own, g.errands[m]? = f.errands[m]?) : p.Fits g own := by
  cases p with
  | ready => exact Engaged.stay h held
  | waiting => exact Asleep.stay h steps held

end Progress

namespace Schedule

/-- What is left of a task after its turn. -/
def rested (t : Task) : Pause × Engine → Option Task × Bool × Engine
  | (.ended, e) => (none, true, { e with tasks := e.tasks.finish t.number })
  | (.waiting w resume, e) => (some { t with progress := .waiting w resume }, true, e)

theorem runTask_ready {t : Task} {p : Plan Round} (h : t.progress = .ready p) (e : Engine) :
    runTask t e = rested t (runLoop t.loop turnLength p e) := by
  unfold runTask
  rw [h]
  rfl

theorem runTask_asleep {t : Task} {w : Wait} {resume : Waking → Engine → Plan Round × Engine}
    (h : t.progress = .waiting w resume) {e : Engine} (hw : w.over? e = none) :
    runTask t e = (some t, false, e) := by
  unfold runTask
  simp only [h, hw]

theorem runTask_woken {t : Task} {w : Wait} {resume : Waking → Engine → Plan Round × Engine}
    (h : t.progress = .waiting w resume) {e e' : Engine} {waking : Waking}
    (hw : w.over? e = some (waking, e')) : runTask t e =
      rested t (runLoop t.loop turnLength (resume waking e').1 (resume waking e').2) := by
  unfold runTask
  simp only [h, hw]
  rfl

theorem rested_onward (t : Task) {r : Pause × Engine} (he : f.engine = r.2)
    (h : r.1.Fits f own) :
    ∃ g, Onward own own f g ∧ g.engine = (rested t r).2.2 ∧
      ∀ t' ∈ (rested t r).1, t'.progress.Fits g own := by
  obtain ⟨pause, e'⟩ := r
  obtain rfl : f.engine = e' := he
  cases pause with
  | ended =>
    have kept : f.engine.KeptBut none { f.engine with tasks := f.engine.tasks.finish t.number } :=
      ⟨fun _ => rfl, fun _ => rfl, fun _ => rfl⟩
    exact ⟨_, onward_beside own (steps_elsewhere kept), rfl, nofun⟩
  | waiting w resume =>
    refine ⟨f, .refl _ _, rfl, fun t' ht' => ?_⟩
    cases ht'
    exact h

/-- One turn of a task is a run of the fleet. -/
theorem runTask_onward (t : Task) (run : Steps (idle e) f) (h : t.progress.Fits f own) :
    ∃ g own', Onward own own' f g ∧ g.engine = (runTask t f.engine).2.2 ∧
      ∀ t' ∈ (runTask t f.engine).1, t'.progress.Fits g own' := by
  have go : ∀ {f₁ : Fleet} {own₁ : List Nat} {p : Plan Round}, Onward own own₁ f f₁ →
      Engaged f₁ own₁ p → ∃ g own', Onward own own' f g ∧
        g.engine = (rested t (runLoop t.loop turnLength p f₁.engine)).2.2 ∧
        ∀ t' ∈ (rested t (runLoop t.loop turnLength p f₁.engine)).1, t'.progress.Fits g own' := by
    intro f₁ own₁ p before engaged
    obtain ⟨f₂, own', turn, he, fits⟩ :=
      runLoop_onward t.loop turnLength (run.trans before.steps) engaged
    obtain ⟨g, after, hg⟩ := rested_onward t he fits
    exact ⟨g, own', (before.trans turn).trans after, hg⟩
  cases hp : t.progress with
  | ready p =>
    rw [hp] at h
    rw [runTask_ready hp]
    exact go (.refl own f) h
  | waiting w resume =>
    rw [hp] at h
    cases hw : w.over? f.engine with
    | none =>
      rw [runTask_asleep hp hw]
      refine ⟨f, own, .refl own f, rfl, fun t' ht' => ?_⟩
      cases ht'
      rw [hp]
      exact h
    | some woken =>
      obtain ⟨waking, e'⟩ := woken
      obtain ⟨f₁, own₁, before, he, engaged⟩ := Asleep.wake h hw
      rw [runTask_woken hp hw, ← he]
      exact go before engaged

/-- Every task has errands of its own. -/
inductive TasksFit (f : Fleet) : List Nat → List Task → Prop
  | nil : TasksFit f [] []
  | cons {t : Task} {ts : List Task} {own rest : List Nat} : t.progress.Fits f own →
      TasksFit f rest ts → own.Disjoint rest → TasksFit f (own ++ rest) (t :: ts)

variable {ts : List Task}

theorem TasksFit.range (h : TasksFit f own ts) : ∀ m ∈ own, m < f.errands.length := by
  induction h with
  | nil => simp
  | cons fits _ _ ih =>
    intro m hm
    rcases List.mem_append.1 hm with hm | hm
    · exact fits.range m hm
    · exact ih m hm

theorem TasksFit.stay (h : TasksFit f own ts) (steps : Steps f g)
    (held : ∀ m ∈ own, g.errands[m]? = f.errands[m]?) : TasksFit g own ts := by
  induction h with
  | nil => exact .nil
  | cons fits _ apart ih =>
    exact .cons (fits.stay steps fun m hm => held m (List.mem_append_left _ hm))
      (ih fun m hm => held m (List.mem_append_right _ hm)) apart

theorem runEach_cons (t : Task) (ts : List Task) (e : Engine) : runEach (t :: ts) e =
    ((runTask t e).1.toList ++ (runEach ts (runTask t e).2.2).1,
      (runTask t e).2.1 || (runEach ts (runTask t e).2.2).2.1,
      (runEach ts (runTask t e).2.2).2.2) := rfl

/-- One turn of every task is a run of the fleet. -/
theorem runEach_onward (run : Steps (idle e) f) (h : TasksFit f own ts) :
    ∃ g own', Onward own own' f g ∧ g.engine = (runEach ts f.engine).2.2 ∧
      TasksFit g own' (runEach ts f.engine).1 := by
  induction ts generalizing f own with
  | nil =>
    cases h
    exact ⟨f, [], .refl _ _, rfl, .nil⟩
  | cons t ts ih =>
    cases h with
    | @cons _ _ own rest fits others apart =>
      obtain ⟨f₁, own₁, turn, he, left⟩ := runTask_onward t run fits
      have stay := others.stay turn.steps (turn.held others.range apart)
      have apart₁ := turn.apart others.range apart
      obtain ⟨g, rest', turns, he', lefts⟩ := ih (run.trans turn.steps) stay
      rw [he] at he' lefts
      rw [runEach_cons]
      cases ht : (runTask t f.engine).1 with
      | none =>
        exact ⟨g, rest', (turn.append turns).mono (List.subset_append_right _ _), he', lefts⟩
      | some t' =>
        -- the other tasks have moved meanwhile, but none of the errands of this one
        have fits₁ : t'.progress.Fits f₁ own₁ := left t' ht
        have fits₂ := fits₁.stay turns.steps (turns.held fits₁.range (List.disjoint_symm apart₁))
        exact ⟨g, own₁ ++ rest', turn.append turns, he',
          .cons fits₂ lefts
            (List.disjoint_symm (turns.apart fits₁.range (List.disjoint_symm apart₁)))⟩

/-- The fleet has the engine of the schedule and the errands of its tasks. -/
structure Fits (f : Fleet) (own : List Nat) (s : Schedule) : Prop where
  engine : f.engine = s.engine
  tasks : TasksFit f own s.tasks

variable {s : Schedule}

/-- What is done beside the errands leaves the tasks where they stand. -/
theorem Fits.beside (h : s.Fits f own) {e' : Engine} (steps : Steps f { f with engine := e' }) :
    Onward own own f { f with engine := e' } ∧
      Schedule.Fits { f with engine := e' } own { s with engine := e' } :=
  ⟨onward_beside own steps, rfl, h.tasks.stay steps fun _ _ => rfl⟩

theorem TasksFit.append (h : TasksFit f own ts) {us : List Task}
    (hu : ∀ u ∈ us, u.progress.Fits f []) : TasksFit f own (ts ++ us) := by
  induction h with
  | nil =>
    induction us with
    | nil => exact .nil
    | cons u us ih =>
      exact .cons (hu u (by simp)) (ih fun v hv => hu v (by simp [hv])) (List.disjoint_nil_left _)
  | cons fits _ apart ih => exact .cons fits ih apart

theorem adopt_onward (h : s.Fits f own) :
    ∃ g, Onward own own f g ∧ s.adopt.Fits g own := by
  have kept : f.engine.KeptBut none s.adopt.engine := by
    rw [h.engine]
    exact ⟨fun _ => rfl, fun _ => rfl, fun _ => rfl⟩
  obtain ⟨onward, fits⟩ := h.beside (steps_elsewhere kept)
  refine ⟨_, onward, rfl, fits.tasks.append fun u hu => ?_⟩
  obtain ⟨⟨n, l⟩, -, rfl⟩ := List.mem_map.1 hu
  exact Engaged.free (.done _)

theorem settleFor_succ (fuel : Nat) (s : Schedule) : settleFor (fuel + 1) s =
    let r := runEach s.adopt.tasks s.adopt.engine
    if r.2.1 then settleFor fuel ⟨r.2.2, r.1⟩ else ⟨r.2.2, r.1⟩ := rfl

theorem settleFor_onward (fuel : Nat) (run : Steps (idle e) f) (h : s.Fits f own) :
    ∃ g own', Onward own own' f g ∧ (settleFor fuel s).Fits g own' := by
  induction fuel generalizing f own s with
  | zero => exact ⟨f, own, .refl _ _, h⟩
  | succ fuel ih =>
    obtain ⟨f₁, adopted, fits₁⟩ := adopt_onward h
    obtain ⟨f₂, own₂, turns, he, fits₂⟩ := runEach_onward (run.trans adopted.steps) fits₁.tasks
    have onward := adopted.trans turns
    rw [fits₁.engine] at he fits₂
    rw [settleFor_succ]
    generalize runEach s.adopt.tasks s.adopt.engine = r at he fits₂
    obtain ⟨tasks, moved, e'⟩ := r
    cases moved with
    | false => exact ⟨f₂, own₂, onward, he, fits₂⟩
    | true =>
      obtain ⟨g, own', rest, fits⟩ := ih (s := ⟨e', tasks⟩) (run.trans onward.steps) ⟨he, fits₂⟩
      exact ⟨g, own', onward.trans rest, fits⟩

theorem elapse_onward (ms : Nat) (h : s.Fits f own) :
    ∃ g, Onward own own f g ∧ (s.elapse ms).Fits g own := by
  have kept : f.engine.KeptBut none (s.elapse ms).engine := by
    rw [h.engine]
    exact ⟨fun _ => rfl, fun _ => rfl, fun _ => rfl⟩
  exact ⟨_, h.beside (steps_elsewhere kept)⟩

/-- What goes on while a caller waits is a run of the fleet. -/
theorem awaitFrom_onward (w : Wait) (now : Nat) (s : Schedule) {f : Fleet} {own : List Nat}
    (run : Steps (idle e) f) (h : s.Fits f own) :
    ∃ g own', Onward own own' f g ∧ (awaitFrom w now s).2.Fits g own' := by
  obtain ⟨f₁, own₁, settled, fits₁⟩ := settleFor_onward turnLength run h
  have run₁ := run.trans settled.steps
  rw [awaitFrom]
  cases hw : w.over? s.settle.engine with
  | some woken =>
    obtain ⟨waking, e'⟩ := woken
    have kept : f₁.engine.KeptBut none e' := fits₁.engine ▸ Engine.over?_keeps hw
    obtain ⟨woke, fits⟩ := fits₁.beside (steps_elsewhere kept)
    exact ⟨_, own₁, settled.trans woke, fits⟩
  | none =>
    dsimp only
    split_ifs
    · obtain ⟨f₂, slept, fits₂⟩ := elapse_onward _ fits₁
      obtain ⟨g, own', rest, fits⟩ := awaitFrom_onward w _ _ (run₁.trans slept.steps) fits₂
      exact ⟨g, own', (settled.trans slept).trans rest, fits⟩
    · obtain ⟨g, slept, fits⟩ := elapse_onward _ fits₁
      exact ⟨g, own₁, settled.trans slept, fits⟩
termination_by w.deadline - now

/-- What another party does leaves the tasks where they stand. -/
theorem Fits.stay (h : s.Fits f own) {mine mine' : List Nat} (onward : Onward mine mine' f g)
    (apart : mine.Disjoint own) :
    Schedule.Fits g own { s with engine := g.engine } ∧ mine'.Disjoint own :=
  ⟨⟨rfl, h.tasks.stay onward.steps (onward.held h.tasks.range apart)⟩,
    onward.apart h.tasks.range apart⟩

/-- A plan of the caller, carried out among the tasks, is a run of the fleet. -/
theorem run_steps {α : Type} {p : Plan α} {mine : List Nat} (before : Steps (idle e) f)
    (h : Engaged f mine p) (fits : s.Fits f own) (apart : mine.Disjoint own) :
    ∃ g own', Steps f g ∧ (run p s).2.Fits g own' := by
  induction p generalizing f s mine own with
  | done a => exact ⟨f, own, .refl, fits⟩
  | step a next ih =>
    obtain ⟨f₁, mine₁, begun, he, ready⟩ := h.ready
    unfold run
    rw [← fits.engine, ← he]
    cases hp : f₁.engine.perform a with
    | reply r e' =>
      obtain ⟨f₂, mine₂, replied, rfl, engaged⟩ := ready.reply hp
      have onward := begun.trans replied
      obtain ⟨fits₂, apart₂⟩ := fits.stay onward apart
      obtain ⟨g, own', rest, fits'⟩ := ih r (before.trans onward.steps) engaged fits₂ apart₂
      exact ⟨g, own', onward.steps.trans rest, fits'⟩
    | wait w resume e' =>
      obtain ⟨f₂, waited, rfl, asleep⟩ := ready.wait (before.trans begun.steps) hp
      have onward := begun.trans waited
      obtain ⟨fits₂, apart₂⟩ := fits.stay onward apart
      -- the tasks run while the caller waits; its own errand stays where it was
      obtain ⟨f₃, own₃, awaited, fits₃⟩ := awaitFrom_onward w f₂.engine.sleptMs
        { s with engine := f₂.engine } (before.trans onward.steps) fits₂
      have apart₃ := List.disjoint_symm
        (awaited.apart asleep.range (List.disjoint_symm apart₂))
      have held := awaited.held asleep.range (List.disjoint_symm apart₂)
      dsimp only [await]
      generalize awaitFrom w f₂.engine.sleptMs { s with engine := f₂.engine } = x at fits₃
      obtain ⟨waking, s₃⟩ := x
      obtain ⟨f₄, mine₄, woke, he₄, engaged⟩ := asleep.resumes f₃ awaited.steps held waking
      obtain ⟨fits₄, apart₄⟩ := fits₃.stay woke apart₃
      have whole := (onward.steps.trans awaited.steps).trans woke.steps
      rw [he₄, fits₃.engine] at fits₄
      rw [fits₃.engine] at engaged
      obtain ⟨g, own', rest, fits'⟩ := ih _ (before.trans whole) engaged fits₄ apart₄
      exact ⟨g, own', whole.trans rest, fits'⟩

/-- What can come of a schedule that starts with nothing: its caller carries out plans among the
tasks, and anything may go on in between. -/
inductive Reached (e : Engine) : Schedule → Prop
  | start : Reached e ⟨e, []⟩
  | run {s : Schedule} {α : Type} {p : Plan α} : Reached e s → p.Made → Reached e (run p s).2
  | outside {s : Schedule} {e' : Engine} : Reached e s → s.engine.Outside e' →
      Reached e { s with engine := e' }

/-- All that comes of a schedule comes of a fleet. -/
theorem Reached.fleet (h : Reached e s) : ∃ f own, Steps (idle e) f ∧ s.Fits f own := by
  induction h with
  | start => exact ⟨idle e, [], .refl, rfl, .nil⟩
  | run _ made ih =>
    obtain ⟨f, own, before, fits⟩ := ih
    obtain ⟨g, own', steps, fits'⟩ :=
      run_steps before (.free made) fits (List.disjoint_nil_left own)
    exact ⟨g, own', before.trans steps, fits'⟩
  | outside _ out ih =>
    obtain ⟨f, own, before, fits⟩ := ih
    have step : Steps f _ := .single (.outside (fits.engine ▸ out))
    exact ⟨_, own, before.trans step, (fits.beside step).2⟩

end Schedule

end Courier
