import Courier.Proofs.Fleet.Guard
import Courier.Proofs.Fleet.Turn
import Courier.Proofs.Queue.Run
import Mathlib.Algebra.GroupWithZero.Nat

/-! Adapter calls for one job. Whoever has a grip on a key has the attempt under it in progress in
the log, and is alone with it; a success keeps the key from everybody, first as the grip of the
errand that saw it and then as the log's word. -/

namespace Courier

/-- Whether a deed is an adapter call that came back. -/
def Deed.isCall : Deed → Bool
  | ⟨.callAdapter _, _⟩ => true
  | _ => false

/-- How a deed moves the grip on `key` of an errand that keeps the guard. -/
inductive GripMove (key : String) : Grip → Deed → Grip → Prop where
  | kept {g : Grip} {d : Deed} : (∀ k s, d.mark k s = s) → d.isSuccess = false → GripMove key g d g
  | taken : GripMove key .free ⟨.beginAttempt key, .ok .first⟩ .holding
  | won {d : Deed} : (∀ k s, d.mark k s = s) → d.isSuccess = true →
      GripMove key .holding d .succeeded
  | written {m : Json} : GripMove key .succeeded ⟨.completeAttempt key m, .ok ()⟩ .free
  | cleared : GripMove key .holding ⟨.clearAttempt key, .ok ()⟩ .free

theorem guard_move {key : String} {g : Grip} {a : Action} (h : (guard key).allows g a)
    (r : a.Reply) : GripMove key g ⟨a, r⟩ ((guard key).after g ⟨a, r⟩) := by
  cases a with
  | beginAttempt k =>
    obtain ⟨rfl, rfl⟩ := h
    rcases r with _ | (_ | _ | _)
    · exact .kept (fun _ _ => rfl) rfl
    · exact .taken
    · exact .kept (fun _ _ => rfl) rfl
    · exact .kept (fun _ _ => rfl) rfl
  | completeAttempt k m =>
    obtain ⟨rfl, rfl⟩ := h
    cases r with
    | error => exact .kept (fun _ _ => rfl) rfl
    | ok => exact .written
  | clearAttempt k =>
    obtain ⟨rfl, rfl⟩ := h
    cases r with
    | error => exact .kept (fun _ _ => rfl) rfl
    | ok => exact .cleared
  | callAdapter i =>
    cases h
    by_cases hs : Deed.isSuccess ⟨.callAdapter i, r⟩ = true
    · simp only [guard, hs, if_true]
      exact .won (fun _ _ => rfl) hs
    · simp only [guard, hs]
      exact .kept (fun _ _ => rfl) (by simpa using hs)
  | _ => exact .kept (fun _ _ => rfl) rfl

namespace GripMove

variable {key : String} {g g' : Grip} {d : Deed} {s : Option AttemptState}

/-- A grip is taken only by going first. -/
theorem free_or_first (h : GripMove key g d g') (hg' : g' ≠ .free) :
    g ≠ .free ∨ d = ⟨.beginAttempt key, .ok .first⟩ := by
  cases h with
  | kept => exact Or.inl hg'
  | taken => exact Or.inr rfl
  | won => exact Or.inl nofun
  | written | cleared => exact absurd rfl hg'

theorem mark_own (h : GripMove key g d g') (hg' : g' ≠ .free)
    (hs : g ≠ .free → s = some .inProgress) : d.mark key s = some .inProgress := by
  cases h with
  | kept same => rw [same, hs hg']
  | taken => simp [Deed.mark]
  | won same => rw [same, hs (by decide)]
  | written | cleared => exact absurd rfl hg'

/-- Attempts in progress under other keys, or without a grip of this errand, stay in progress. -/
theorem mark_other (h : GripMove key g d g') {k : String} (hk : k = key → g = .free)
    (hs : s = some .inProgress) : d.mark k s = some .inProgress := by
  cases h with
  | kept same | won same => rw [same, hs]
  | taken => simp [Deed.mark, hs]
  | written | cleared =>
    have hne : k ≠ key := fun he => by cases hk he
    simp [Deed.mark, hne, hs]

/-- What is done stays done. -/
theorem mark_done (h : GripMove key g d g') {k : String}
    (hd : d = ⟨.beginAttempt key, .ok .first⟩ → k ≠ key) (hs : s = some .done) :
    d.mark k s = some .done := by
  cases h with
  | kept same | won same => rw [same, hs]
  | taken => simp [Deed.mark, hd rfl, hs]
  | written => simp [Deed.mark, hs]
  | cleared => simp [Deed.mark, hs]

/-- Without a grip nothing that is in the log is taken out. -/
theorem mark_logged (h : GripMove key g d g') {k : String} (hk : k = key → g = .free)
    (hd : d = ⟨.beginAttempt key, .ok .first⟩ → k ≠ key) (hs : s ≠ none) : d.mark k s ≠ none := by
  obtain ⟨t, rfl⟩ := Option.ne_none_iff_exists'.1 hs
  cases t with
  | inProgress =>
    rw [h.mark_other hk rfl]
    nofun
  | done =>
    rw [h.mark_done hd rfl]
    nofun

/-- A success goes only into the log. -/
theorem of_succeeded (h : GripMove key .succeeded d g') :
    g' = .succeeded ∨ d.mark key s = some .done := by
  cases h with
  | kept => exact Or.inl rfl
  | written => exact Or.inr (by simp [Deed.mark])

theorem of_isSuccess (h : GripMove key g d g') (hd : d.isSuccess = true) : g' = .succeeded := by
  cases h with
  | kept _ hn => rw [hn] at hd; cases hd
  | won => rfl
  | taken | written | cleared => cases hd

end GripMove

namespace Errand

def grip (x : Errand) : Grip := Fleet.standing (fun j => guard j.attemptKey) .free x

def IsFor (intentId : String) (id : JobId) (x : Errand) : Prop :=
  x.job.intentId = intentId ∧ x.job.id = id

instance (intentId : String) (id : JobId) (x : Errand) : Decidable (x.IsFor intentId id) :=
  inferInstanceAs (Decidable (_ ∧ _))

theorem IsFor.attemptKey_eq {intentId : String} {id : JobId} {x y : Errand}
    (hx : x.IsFor intentId id) (hy : y.IsFor intentId id) :
    x.job.attemptKey = y.job.attemptKey := by
  obtain ⟨hxi, hxj⟩ := hx
  obtain ⟨hyi, hyj⟩ := hy
  unfold Job.intentId at hxi hyi
  rw [Job.attemptKey, Job.attemptKey, hxi, hyi, hxj, hyj]

theorem Answered.gripMove {e e' : Engine} {x x' : Errand} {a : Action} {r : a.Reply}
    (h : x.Answered e e' x' a r) (hj : x'.job = x.job)
    (keeps : x.stage.plan.Keeps (guard x.job.attemptKey) x.grip) :
    GripMove x.job.attemptKey x.grip ⟨a, r⟩ x'.grip := by
  have after : x'.grip = (guard x.job.attemptKey).after x.grip ⟨a, r⟩ :=
    Fleet.standing_answered h hj
  rw [after]
  exact guard_move (h.allowed keeps) r

theorem Answered.first {e e' : Engine} {x x' : Errand} {a : Action} {r : a.Reply} {key : String}
    (h : x.Answered e e' x' a r) (hd : (⟨a, r⟩ : Deed) = ⟨.beginAttempt key, .ok .first⟩) :
    e.attemptState? key = none := by
  cases hd
  rcases h.source with ⟨foreign, -⟩ | ⟨-, done⟩
  · cases foreign
  · exact Engine.perform_first done

/-- How many adapter calls the errand has started. -/
def calls (x : Errand) : Nat := x.past.countP Deed.isCall + x.stage.isCalling.toNat

theorem calls_onward (x : Errand) (a : Action) (r : a.Reply)
    (next : a.Reply → Plan.Attempt Disposition) :
    (x.onward a r next).calls = x.past.countP Deed.isCall + (Deed.isCall ⟨a, r⟩).toNat := by
  cases hc : Deed.isCall ⟨a, r⟩ <;> simp [calls, onward, Stage.isCalling, hc]

theorem Move.calls {e e' : Engine} {x x' : Errand} (h : x.Move e e' x') :
    x'.calls = x.calls ∨
      (x.isRunning = true ∧ ∃ i next, x.stage = .acting (.step (.callAdapter i) next)) := by
  cases h with
  | @act a next r _ _ hs own done =>
    have hc : Deed.isCall ⟨a, r⟩ = false := by cases a <;> first | rfl | cases own
    exact Or.inl (by rw [calls_onward, hc, Errand.calls, hs]; rfl)
  | draw _ _ hs => exact Or.inl (by rw [calls_onward, Errand.calls, hs]; rfl)
  | supply _ _ hs => exact Or.inl (by rw [calls_onward, Errand.calls, hs]; rfl)
  | depart own hs =>
    exact Or.inr ⟨x.isRunning_iff.2 ⟨own, by rw [Errand.isDone, hs]⟩, _, _, hs⟩
  | arrive _ hs => exact Or.inl (by rw [calls_onward, Errand.calls, hs]; rfl)
  | stop => exact Or.inl rfl

end Errand

namespace Fleet

variable {e : Engine} {f g : Fleet}

theorem getElem?_set_cases {l : List Errand} {n m : Nat} {x y : Errand}
    (h : (l.set n x)[m]? = some y) : (m = n ∧ y = x) ∨ (m ≠ n ∧ l[m]? = some y) := by
  rw [List.getElem?_set] at h
  split_ifs at h with hn hl
  · exact Or.inl ⟨hn.symm, (Option.some.inj h).symm⟩
  · exact Or.inr ⟨Ne.symm hn, h⟩

/-- Whoever has a grip is alone with it, and the log has the attempt in progress. -/
structure Guarded (f : Fleet) : Prop where
  held : ∀ (m : Nat) x, f.errands[m]? = some x → x.grip ≠ .free →
    f.engine.attemptState? x.job.attemptKey = some .inProgress
  alone : ∀ (m n : Nat) x y, f.errands[m]? = some x → f.errands[n]? = some y →
    x.job.attemptKey = y.job.attemptKey → x.grip ≠ .free → y.grip ≠ .free → m = n

theorem guarded_idle (e : Engine) : Guarded (idle e) := by
  constructor <;> simp [idle]

/-- A guarded fleet stays so when one of its errands gets an answer. -/
theorem Guarded.answered (h : Guarded f) {n : Nat} {x x' : Errand} {e' : Engine} {a : Action}
    {r : a.Reply} (hx : f.errands[n]? = some x) (hj : x'.job = x.job)
    (ans : x.Answered f.engine e' x' a r)
    (move : GripMove x.job.attemptKey x.grip ⟨a, r⟩ x'.grip) :
    Guarded ⟨e', f.errands.set n x'⟩ := by
  -- an errand that has a grip afterwards keeps all others from having one on its key
  have others : ∀ (m : Nat) y, m ≠ n → f.errands[m]? = some y →
      y.job.attemptKey = x.job.attemptKey → y.grip ≠ .free → x'.grip = .free := by
    intro m y hmn hy hkey hgrip
    by_contra hx'
    rcases move.free_or_first hx' with hg | hd
    · exact hmn (h.alone m n y x hy hx hkey hgrip hg)
    · have hheld := h.held m y hy hgrip
      rw [hkey, ans.first hd] at hheld
      cases hheld
  constructor
  · intro m y hy hgrip
    dsimp only at hy ⊢
    rw [ans.mark]
    rcases getElem?_set_cases hy with ⟨-, rfl⟩ | ⟨hmn, hy⟩
    · rw [hj]
      exact move.mark_own hgrip fun hg => h.held n x hx hg
    · refine move.mark_other (fun hkey => ?_) (h.held m y hy hgrip)
      by_contra hg
      exact hmn (h.alone m n y x hy hx hkey hgrip hg)
  · intro m k y z hy hz hkey hgy hgz
    rcases getElem?_set_cases hy with ⟨hm, rfl⟩ | ⟨hm, hy'⟩
    · rcases getElem?_set_cases hz with ⟨hk, -⟩ | ⟨hk, hz'⟩
      · rw [hm, hk]
      · exact absurd (others k z hk hz' (by rw [← hkey, hj]) hgz) hgy
    · rcases getElem?_set_cases hz with ⟨-, rfl⟩ | ⟨-, hz'⟩
      · exact absurd (others m y hm hy' (by rw [hkey, hj]) hgy) hgz
      · exact h.alone m k y z hy' hz' hkey hgy hgz

/-- Nothing is lost of the guard where no grip changes and the log says the same. -/
theorem Guarded.of_same_grips (h : Guarded f) (he : g.engine.attempts = f.engine.attempts)
    (hx : ∀ (m : Nat) y, g.errands[m]? = some y → y.grip ≠ .free →
      ∃ x, f.errands[m]? = some x ∧ x.job = y.job ∧ x.grip = y.grip) : Guarded g := by
  constructor
  · intro m y hy hgrip
    obtain ⟨x, hm, hj, hg⟩ := hx m y hy hgrip
    rw [Engine.attemptState?, he, ← hj]
    exact h.held m x hm (hg ▸ hgrip)
  · intro m n y z hy hz hkey hgy hgz
    obtain ⟨x, hm, hj, hg⟩ := hx m y hy hgy
    obtain ⟨w, hn, hj', hg'⟩ := hx n z hz hgz
    exact h.alone m n x w hm hn (by rw [hj, hj', hkey]) (hg ▸ hgy) (hg' ▸ hgz)

theorem grip_of_past {x x' : Errand} (hj : x'.job = x.job) (hpast : x'.past = x.past) :
    x'.grip = x.grip := by
  rw [Errand.grip, Errand.grip, standing, standing, hpast, hj]

/-- What every errand of a run keeps. -/
def Keeping (f : Fleet) : Prop :=
  ∀ x ∈ f.errands, x.stage.plan.Keeps (guard x.job.attemptKey) x.grip

theorem Steps.keeping (run : Steps (idle e) f) : Keeping f := fun _ hx =>
  Steps.keeps (fun cfg worker job => Worker.guard_process cfg worker job) run hx

theorem Guarded.step (h : Guarded f) (keeping : Keeping f) (step : Step f g) : Guarded g := by
  cases step with
  | begin cfg worker job =>
    refine h.of_same_grips rfl fun m y hy hgrip => ?_
    dsimp only at hy
    rw [List.getElem?_append] at hy
    split_ifs at hy with hm
    · exact ⟨y, hy, rfl, rfl⟩
    · rw [List.getElem?_singleton] at hy
      split_ifs at hy
      cases hy
      exact absurd rfl hgrip
  | @move n x x' e' hx move =>
    rcases move.cases with ⟨a, r, ans⟩ | ⟨rfl, hpast, -⟩
    · exact h.answered hx move.job ans
        (ans.gripMove move.job (keeping x (List.mem_of_getElem? hx)))
    · refine h.of_same_grips rfl fun m y hy _ => ?_
      rcases getElem?_set_cases hy with ⟨rfl, rfl⟩ | ⟨-, hy⟩
      · exact ⟨x, hx, move.job.symm, (grip_of_past move.job hpast).symm⟩
      · exact ⟨y, hy, rfl, rfl⟩
  | outside out => exact h.of_same_grips out.attempts fun m y hy _ => ⟨y, hy, rfl, rfl⟩

theorem Steps.guarded (run : Steps (idle e) f) : Guarded f := by
  induction run with
  | refl => exact guarded_idle e
  | tail run step ih => exact ih.step (Steps.keeping run) step

/-- The key is closed: the attempt is done, or about to be marked so. -/
def Closed (key : String) (f : Fleet) : Prop :=
  f.engine.attemptState? key = some .done ∨
    ∃ x ∈ f.errands, x.job.attemptKey = key ∧ x.grip = .succeeded

theorem Closed.step {key : String} (h : Closed key f) (keeping : Keeping f) (step : Step f g) :
    Closed key g := by
  cases step with
  | begin cfg worker job =>
    exact h.imp_right fun ⟨x, hx, hkey⟩ => ⟨x, List.mem_append_left _ hx, hkey⟩
  | @move n x x' e' hx move =>
    rcases move.cases with ⟨a, r, ans⟩ | ⟨rfl, hpast, -⟩
    · have gripMove := ans.gripMove move.job (keeping x (List.mem_of_getElem? hx))
      rcases h with hdone | ⟨y, hy, hkey, hgrip⟩
      · refine Or.inl ?_
        rw [ans.mark]
        refine gripMove.mark_done (fun hd hk => ?_) hdone
        rw [hk, ans.first hd] at hdone
        cases hdone
      · obtain ⟨hx', rfl | hy⟩ := mem_set_cases hx x' hy
        · rw [hgrip] at gripMove
          rcases gripMove.of_succeeded with hs | hs
          · exact Or.inr ⟨x', hx', move.job ▸ hkey, hs⟩
          · exact Or.inl (by rw [ans.mark, ← hkey, hs])
        · exact Or.inr ⟨y, hy, hkey, hgrip⟩
    · refine h.imp_right fun ⟨y, hy, hkey, hgrip⟩ => ?_
      obtain ⟨hx', rfl | hy⟩ := mem_set_cases hx x' hy
      · exact ⟨x', hx', move.job ▸ hkey, (grip_of_past move.job hpast).trans hgrip⟩
      · exact ⟨y, hy, hkey, hgrip⟩
  | outside out =>
    refine h.imp_left fun hdone => ?_
    rwa [Engine.attemptState?, out.attempts]

/-- Once an adapter call has come back with a success, its key is closed. -/
theorem Steps.closed (run : Steps (idle e) f) {x : Errand} (hx : x ∈ f.errands) {d : Deed}
    (hd : d ∈ x.past) (success : d.isSuccess = true) : Closed x.job.attemptKey f := by
  induction run generalizing x with
  | refl => cases hx
  | tail run step ih =>
    have keeping := Steps.keeping run
    rcases step.errand_cases hx with old | ⟨cfg, worker, job, rfl⟩ | ⟨y, hy, move⟩
    · exact (ih old hd).step keeping step
    · cases hd
    · have before : d ∈ y.past → Closed x.job.attemptKey _ := fun hd =>
        move.job ▸ (ih hy hd).step keeping step
      rcases move.cases with ⟨a, r, ans⟩ | ⟨-, hpast, -⟩
      · rw [ans.past, List.mem_append, List.mem_singleton] at hd
        rcases hd with hd | rfl
        · exact before hd
        · exact Or.inr ⟨x, hx, rfl, (ans.gripMove move.job (keeping y hy)).of_isSuccess success⟩
      · exact before (hpast ▸ hd)

/-- How many adapter calls for a job have been started. -/
def callsFor (intentId : String) (id : JobId) (f : Fleet) : Nat :=
  (f.errands.map fun x => if x.IsFor intentId id then x.calls else 0).sum

/-- An adapter call for the job has come back with a success. -/
def HasSucceeded (intentId : String) (id : JobId) : Fleet → Prop :=
  Did fun j d => j.intentId = intentId ∧ j.id = id ∧ d.isSuccess = true

instance (intentId : String) (id : JobId) (f : Fleet) : Decidable (f.HasSucceeded intentId id) :=
  inferInstanceAs (Decidable (f.Did _))

/-- Nobody departs under a closed key. -/
theorem Closed.not_departing {key : String} (h : Closed key f) (guarded : Guarded f)
    (keeping : Keeping f) {x : Errand} (hx : x ∈ f.errands) (hkey : x.job.attemptKey = key)
    {i : Intent} {next : AdapterReply → Plan.Attempt Disposition} :
    x.stage.plan ≠ .step (.callAdapter i) next := by
  intro hp
  have keeps := keeping x hx
  rw [hp] at keeps
  have holding : x.grip = .holding := keeps.1
  obtain ⟨n, hn⟩ := List.mem_iff_getElem?.1 hx
  rcases h with hdone | ⟨y, hy, hkey', hgrip⟩
  · have := guarded.held n x hn (by rw [holding]; nofun)
    rw [hkey, hdone] at this
    cases this
  · obtain ⟨m, hm⟩ := List.mem_iff_getElem?.1 hy
    have hmn := guarded.alone m n y x hm hn (hkey'.trans hkey.symm) (by rw [hgrip]; nofun)
      (by rw [holding]; nofun)
    rw [hmn, hn] at hm
    cases hm
    rw [holding] at hgrip
    cases hgrip

/-- Where no errand on its way for the job is about to call the adapter, a step starts no call for
it. -/
theorem Step.callsFor_eq {intentId : String} {id : JobId} (step : Step f g)
    (notDeparting : ∀ x ∈ f.errands, x.IsFor intentId id → x.isRunning = true → ∀ i next,
      x.stage.plan ≠ .step (.callAdapter i) next) :
    g.callsFor intentId id = f.callsFor intentId id := by
  cases step with
  | begin cfg worker job =>
    have none_yet : (Errand.begin cfg worker job).calls = 0 := rfl
    simp [callsFor, none_yet]
  | @move n x x' e' hx move =>
    have same : (if x'.IsFor intentId id then x'.calls else 0) =
        if x.IsFor intentId id then x.calls else 0 := by
      have hfor : x'.IsFor intentId id ↔ x.IsFor intentId id := by
        rw [Errand.IsFor, Errand.IsFor, move.job]
      rw [if_congr hfor rfl rfl]
      split_ifs with hx'
      · rcases move.calls with hc | ⟨running, i, next, hs⟩
        · exact hc
        · exact absurd (congrArg Stage.plan hs)
            (notDeparting x (List.mem_of_getElem? hx) hx' running i next)
      · rfl
    obtain ⟨hn, rfl⟩ := List.getElem?_eq_some_iff.1 hx
    unfold callsFor
    dsimp only
    rw [List.map_set, same]
    congr 1
    rw [← List.getElem_map (fun x => if Errand.IsFor intentId id x then Errand.calls x else 0)
      (h := by simpa using hn), List.set_getElem_self]
  | outside => rfl

theorem Steps.isCalling_unique (run : Steps (idle e) f) {m n : Nat} {x y : Errand}
    (hx : f.errands[m]? = some x) (hy : f.errands[n]? = some y)
    (hkey : x.job.attemptKey = y.job.attemptKey) (cx : x.stage.isCalling = true)
    (cy : y.stage.isCalling = true) : m = n := by
  have holds : ∀ z ∈ f.errands, z.stage.isCalling = true → z.grip ≠ .free := by
    intro z hz cz
    have keeps := Steps.keeping run z hz
    cases hs : z.stage with
    | acting p => rw [hs] at cz; cases cz
    | calling i next =>
      rw [hs] at keeps
      rw [show z.grip = .holding from keeps.1]
      nofun
  exact (Steps.guarded run).alone m n x y hx hy hkey (holds x (List.mem_of_getElem? hx) cx)
    (holds y (List.mem_of_getElem? hy) cy)

/-- Two adapter calls for one job are never in flight at the same time, and once one has come back
with a success, none is started again. -/
theorem Steps.calls_exclusive (run : Steps (idle e) f) (intentId : String) (id : JobId) :
    (∀ (m n : Nat) x y, f.errands[m]? = some x → f.errands[n]? = some y →
      x.IsFor intentId id → y.IsFor intentId id → x.stage.isCalling = true →
      y.stage.isCalling = true → m = n) ∧
    (f.HasSucceeded intentId id → ∀ g, Steps f g →
      g.callsFor intentId id = f.callsFor intentId id) := by
  constructor
  · intro m n x y hx hy forX forY
    exact Steps.isCalling_unique run hx hy (forX.attemptKey_eq forY)
  · rintro ⟨x, hx, d, hd, hintent, hid, success⟩ g steps
    have forX : x.IsFor intentId id := ⟨hintent, hid⟩
    have closed := Steps.closed run hx hd success
    have all : Closed x.job.attemptKey g ∧ g.callsFor intentId id = f.callsFor intentId id := by
      induction steps with
      | refl => exact ⟨closed, rfl⟩
      | @tail b c before step ih =>
        have whole := run.trans before
        have keeping := Steps.keeping whole
        exact ⟨ih.1.step keeping step, (step.callsFor_eq fun y hy forY _ _ _ =>
          ih.1.not_departing (Steps.guarded whole) keeping hy (forY.attemptKey_eq forX)).trans ih.2⟩
    exact all.2

/-- A worker waits for the adapter until its lease is long gone; the job is leased to another,
which finds the attempt under way. Then the adapter reports a success. -/
def slowWorker : Fleet :=
  [.enqueue (Queue.sampleJob 1 "post-1"), .loop (.leaseJobs "w-1" 1 (.ofMillis 1000)),
    .begin "w-1" ⟨.ofNat 1⟩, .turns 0 20, .sleep 60000, .loop .reclaimJobs,
    .loop (.leaseJobs "w-2" 1 (.ofMillis 1000)), .begin "w-2" ⟨.ofNat 1⟩, .turns 1 20,
    .arrive 0 (.outcome .success)].foldl follow (idle (.create .usual .epoch .quiet))

theorem calls_exclusive_slowWorker :
    slowWorker.errands.map Errand.isDone = [false, true] ∧
      ∀ g, Steps slowWorker g → g.callsFor "post-1" ⟨.ofNat 1⟩ = 1 := by
  refine ⟨by decide +kernel, fun g steps => ?_⟩
  have run : Steps (idle (.create .usual .epoch .quiet)) slowWorker := foldl_follow_steps _ _
  have never := (run.calls_exclusive "post-1" ⟨.ofNat 1⟩).2 (by decide +kernel) g steps
  rw [never]
  decide +kernel

end Fleet

end Courier
