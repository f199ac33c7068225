import Courier.Proofs.Fleet.Loops
import Courier.Proofs.Fleet.Settlement
import Courier.Proofs.Fleet.Turn

/-! A plan among the errands of a fleet. A plan of the engine stands between two errands or on its
way in one; whatever it does next, and whenever it goes on after a wait, is a run of the fleet that
moves no errand but its own. -/

namespace Courier

open Plan

namespace Fleet

variable {e : Engine} {f g : Fleet} {own own' own'' : List Nat}

theorem steps_elsewhere {e' : Engine} (kept : f.engine.KeptBut none e') :
    Steps f { f with engine := e' } := .single (.outside (.elsewhere kept))

/-- Leases are taken back past any fault: store calls can be made to get through. -/
theorem steps_reclaimQuietly (f : Fleet) :
    Steps f { f with engine := f.engine.reclaimQuietly } := by
  unfold Engine.reclaimQuietly
  split_ifs with down
  · exact .refl
  · let quiet : Engine :=
      { f.engine with surroundings := { f.engine.surroundings with faults := [] } }
    have up : quiet.unreachable.contains StoreCall.reclaimJobs.store = false :=
      eq_false_of_ne_true down
    have done : quiet.perform .reclaimJobs = .reply (.ok (f.engine.queue.reclaim f.engine.now).1)
        { quiet with queue := (f.engine.queue.reclaim f.engine.now).2 } := by
      simp only [Engine.perform, Engine.reclaimJobs, Engine.call_through up rfl]
      rfl
    have kept : f.engine.KeptBut none quiet := ⟨fun _ => rfl, fun _ => rfl, fun _ => rfl⟩
    exact ((steps_elsewhere kept).tail (.outside (.loop rfl rfl done))).tail
      (.outside (.elsewhere ⟨fun _ => rfl, fun _ => rfl, fun _ => rfl⟩))

theorem Step.length_le (step : Step f g) : f.errands.length ≤ g.errands.length := by
  cases step with
  | begin => simp
  | move => simp
  | outside => exact Nat.le_refl _

theorem Steps.length_le (steps : Steps f g) : f.errands.length ≤ g.errands.length := by
  induction steps with
  | refl => exact Nat.le_refl _
  | tail _ step ih => exact Nat.le_trans ih step.length_le

/-- A run that moves no errand but those of `own` and new ones, and leaves off with those of
`own'`. -/
structure Onward (own own' : List Nat) (f g : Fleet) : Prop where
  steps : Steps f g
  others : ∀ (m : Nat) x, f.errands[m]? = some x → m ∉ own → g.errands[m]? = some x
  fresh : ∀ m ∈ own', m ∈ own ∨ f.errands.length ≤ m

theorem Onward.refl (own : List Nat) (f : Fleet) : Onward own own f f :=
  ⟨.refl, fun _ _ hx _ => hx, fun _ hm => Or.inl hm⟩

theorem lt_of_getElem? {l : List Errand} {m : Nat} {x : Errand} (hx : l[m]? = some x) :
    m < l.length := (List.getElem?_eq_some_iff.1 hx).1

theorem Onward.trans (h : Onward own own' f g) {k : Fleet} (h' : Onward own' own'' g k) :
    Onward own own'' f k := by
  refine ⟨h.steps.trans h'.steps, fun m x hx hm => h'.others m x (h.others m x hx hm) ?_, ?_⟩
  · intro hm'
    rcases h.fresh m hm' with hm' | hlen
    · exact hm hm'
    · exact absurd (lt_of_getElem? hx) (Nat.not_lt.2 hlen)
  · intro m hm
    rcases h'.fresh m hm with hm | hlen
    · exact h.fresh m hm
    · exact Or.inr (Nat.le_trans h.steps.length_le hlen)

/-- Steps that move no errand at all. -/
theorem onward_beside (own : List Nat) {e' : Engine} (steps : Steps f { f with engine := e' }) :
    Onward own own f { f with engine := e' } :=
  ⟨steps, fun _ _ hx _ => hx, fun _ hm => Or.inl hm⟩

theorem onward_move {n : Nat} {x x' : Errand} {e' : Engine} (hx : f.errands[n]? = some x)
    (move : x.Move f.engine e' x') : Onward [n] [n] f ⟨e', f.errands.set n x'⟩ := by
  refine ⟨.single (.move hx move), fun m y hy hm => ?_, fun _ hm => Or.inl hm⟩
  rw [List.getElem?_set_ne (fun h => hm (by simp [h])), hy]

theorem Onward.mono (h : Onward own own' f g) (sub : own'' ⊆ own') : Onward own own'' f g :=
  ⟨h.steps, h.others, fun m hm => h.fresh m (sub hm)⟩

theorem Onward.widen (h : Onward own own' f g) (sub : own ⊆ own'') : Onward own'' own' f g :=
  ⟨h.steps, fun m x hx hm => h.others m x hx fun hm' => hm (sub hm'),
    fun m hm => (h.fresh m hm).imp_left fun hm' => sub hm'⟩

/-- What belongs to others is not moved. -/
theorem Onward.held (h : Onward own own' f g) {rest : List Nat}
    (range : ∀ m ∈ rest, m < f.errands.length) (apart : own.Disjoint rest) :
    ∀ m ∈ rest, g.errands[m]? = f.errands[m]? := by
  intro m hm
  have hx := List.getElem?_eq_getElem (range m hm)
  rw [hx]
  exact h.others m _ hx fun hm' => apart hm' hm

/-- Nor is it taken from them. -/
theorem Onward.apart (h : Onward own own' f g) {rest : List Nat}
    (range : ∀ m ∈ rest, m < f.errands.length) (apart : own.Disjoint rest) :
    own'.Disjoint rest := by
  intro m hm hm'
  rcases h.fresh m hm with hm | hlen
  · exact apart hm hm'
  · exact absurd (range m hm') (Nat.not_lt.2 hlen)

theorem Onward.append (h : Onward own own' f g) {rest rest' : List Nat} {k : Fleet}
    (h' : Onward rest rest' g k) : Onward (own ++ rest) (own' ++ rest') f k := by
  refine ⟨h.steps.trans h'.steps, fun m x hx hm => ?_, fun m hm => ?_⟩
  · rw [List.mem_append, not_or] at hm
    exact h'.others m x (h.others m x hx hm.1) hm.2
  · rw [List.mem_append] at hm ⊢
    rcases hm with hm | hm
    · exact (h.fresh m hm).imp_left Or.inl
    · rcases h'.fresh m hm with hm | hlen
      · exact Or.inl (Or.inr hm)
      · exact Or.inr (Nat.le_trans h.steps.length_le hlen)

/-- Where a plan stands: between errands, or on its way in one of them. -/
inductive Engaged {α : Type} (f : Fleet) : List Nat → Plan α → Prop
  | free {p : Plan α} : p.Made → Engaged f [] p
  | busy {n : Nat} {x : Errand} {a : Action} {next : a.Reply → Attempt Disposition}
      {k : Except Failure Disposition → Plan α} : f.errands[n]? = some x → x.isStopped = false →
      x.stage = .acting (.step a next) → (∀ r, (k r).Made) →
      Engaged f [n] ((Plan.step a next).bind k)

/-- A plan that waits, and may be resumed whatever has come of the rest meanwhile. -/
structure Asleep {α : Type} (f : Fleet) (own : List Nat)
    (resume : Waking → Engine → Plan α × Engine) : Prop where
  range : ∀ m ∈ own, m < f.errands.length
  resumes : ∀ g, Steps f g → (∀ m ∈ own, g.errands[m]? = f.errands[m]?) → ∀ waking,
    ∃ k own', Onward own own' g k ∧ k.engine = (resume waking g.engine).2 ∧
      Engaged k own' (resume waking g.engine).1

variable {α : Type}

/-- After an answer the errand is on its way still, or done. -/
theorem exists_engaged {n : Nat} {x : Errand} {q : Attempt Disposition}
    {k : Except Failure Disposition → Plan α} (hx : f.errands[n]? = some x)
    (alive : x.isStopped = false) (hs : x.stage = .acting q) (made : ∀ r, (k r).Made) :
    ∃ own', own' ⊆ [n] ∧ Engaged f own' (q.bind k) := by
  cases q with
  | done r => exact ⟨[], by simp, .free (made r)⟩
  | step a next => exact ⟨[n], List.Subset.refl _, .busy hx alive hs made⟩

/-- What stands behind the next action of a plan. -/
inductive Ready (f : Fleet) (a : Action) (next : a.Reply → Plan α) : List Nat → Prop
  | free : a.isForJob = false → a.isForeign = false → (∀ r, (next r).Made) → Ready f a next []
  | busy {n : Nat} {x : Errand} {q : a.Reply → Attempt Disposition}
      {k : Except Failure Disposition → Plan α} : f.errands[n]? = some x → x.isStopped = false →
      x.stage = .acting (.step a q) → (∀ r, next r = (q r).bind k) → (∀ r, (k r).Made) →
      Ready f a next [n]

variable {a : Action} {next : a.Reply → Plan α}

/-- A plan that comes to an errand begins with it. -/
theorem Engaged.ready (h : Engaged f own (.step a next)) :
    ∃ g own', Onward own own' f g ∧ g.engine = f.engine ∧ Ready g a next own' := by
  generalize hp : Plan.step a next = p at h
  cases h with
  | free made =>
    cases made with
    | done => cases hp
    | step beside own rest =>
      cases hp
      exact ⟨f, [], .refl _ _, rfl, .free beside own rest⟩
    | @errand cfg worker job k made =>
      -- the new errand is numbered beyond all that anybody owns
      refine ⟨_, [f.errands.length], ⟨.single (.begin cfg worker job), ?_, ?_⟩, rfl, ?_⟩
      · intro m x hx _
        rw [List.getElem?_append_left (lt_of_getElem? hx), hx]
      · intro m hm
        exact Or.inr (Nat.le_of_eq (List.mem_singleton.1 hm).symm)
      · cases hp
        exact .busy List.getElem?_concat_length rfl rfl (fun _ => rfl) made
  | busy hx alive hs made =>
    cases hp
    exact ⟨f, _, .refl _ _, rfl, .busy hx alive hs (fun _ => rfl) made⟩

theorem steps_play {γ : Type} {t : Turn γ} {overrun r : γ} {e₀ e' : Engine}
    (kept : f.engine.KeptBut none e₀) (h : e₀.play t overrun = .reply r e') :
    Steps f { f with engine := e' } := by
  rcases e₀.play_cases t overrun with ⟨r', e₁, e₂, kept', he, hp⟩ | ⟨w, e₁, -, hp⟩
  · rw [h] at hp
    cases hp
    rcases he with rfl | rfl
    · exact steps_elsewhere (kept.trans kept')
    · exact (steps_elsewhere (kept.trans kept')).trans
        (steps_reclaimQuietly { f with engine := e₁ })
  · rw [h] at hp
    cases hp

/-- An errand that is answered goes on. -/
theorem Onward.answer {n : Nat} {x x' : Errand} {q : Attempt Disposition} {e' : Engine}
    {k : Except Failure Disposition → Plan α} (h : Onward own [n] f g)
    (hx : g.errands[n]? = some x) (move : x.Move g.engine e' x') (alive : x'.isStopped = false)
    (hs : x'.stage = .acting q) (made : ∀ r, (k r).Made) :
    ∃ g own', Onward own own' f g ∧ g.engine = e' ∧ Engaged g own' (q.bind k) := by
  have hx' : (g.errands.set n x')[n]? = some x' := List.getElem?_set_self (lt_of_getElem? hx)
  obtain ⟨own', sub, engaged⟩ := exists_engaged (f := ⟨e', g.errands.set n x'⟩) hx' alive hs made
  exact ⟨_, own', (h.trans (onward_move hx move)).mono sub, rfl, engaged⟩

/-- What an answered action does is a run of the fleet. -/
theorem Ready.reply {r : a.Reply} {e' : Engine} (h : Ready f a next own)
    (hp : f.engine.perform a = .reply r e') :
    ∃ g own', Onward own own' f g ∧ g.engine = e' ∧ Engaged g own' (next r) := by
  cases h with
  | free beside own rest =>
    exact ⟨_, [], onward_beside [] (.single (.outside (.loop beside own hp))), rfl, .free (rest r)⟩
  | @busy n x q k hx alive hs same made =>
    rw [same r]
    have act (own : a.isForeign = false) := (Onward.refl [n] f).answer hx
      (.act alive hs own hp) alive rfl made
    cases a with
    | drawUnit =>
      cases hp
      exact (Onward.refl [n] f).answer hx (.draw _ alive hs) alive rfl made
    | materialize i =>
      obtain ⟨t, overrun, e₀, kept, he⟩ := f.engine.materialize_play i
      have played := onward_beside [n] (steps_play kept (he.symm.trans hp))
      exact played.answer hx (.supply r alive hs) alive rfl made
    | callAdapter i =>
      obtain ⟨t, overrun, e₀, kept, he⟩ := f.engine.callAdapter_play i
      have played := onward_beside [n] (steps_play kept (he.symm.trans hp))
      have departed := played.trans (onward_move hx (.depart alive hs))
      exact departed.answer (List.getElem?_set_self (lt_of_getElem? hx)) (.arrive r rfl) alive rfl
        made
    | _ => exact act rfl

/-- The engine after a wait that is none of an adapter's or of a materializer's. -/
theorem perform_wait {f : Engine} {w : Wait} {resume : Waking → Engine → a.Reply × Engine}
    {e' : Engine} (own : a.isForeign = false) (hp : f.perform a = .wait w resume e') :
    e' = f ∧ ∀ waking e, (resume waking e).2 = e := by
  cases a with
  | pause | pauseForEnvelope | join | sleep =>
    cases hp
    exact ⟨rfl, fun _ _ => rfl⟩
  | drawUnit | materialize | callAdapter => cases own
  | _ => cases hp

/-- Errands do not go to sleep. -/
theorem awake_of_allows {id : JobId} {s : Duty} {w : Wait} {e₀ e' : Engine}
    {resume : Waking → Engine → a.Reply × Engine} (allowed : (settlement id).allows s a)
    (hp : e₀.perform a = .wait w resume e') :
    (∃ i, a = .materialize i) ∨ ∃ i, a = .callAdapter i := by
  cases a with
  | pause | pauseForEnvelope | join | sleep => exact allowed.elim
  | materialize i => exact Or.inl ⟨i, rfl⟩
  | callAdapter i => exact Or.inr ⟨i, rfl⟩
  | _ => cases hp

theorem play_wait {γ : Type} {t : Turn γ} {overrun : γ} {e₀ e' : Engine} {w : Wait}
    {resume : Waking → Engine → γ × Engine} (kept : f.engine.KeptBut none e₀)
    (hp : e₀.play t overrun = .wait w resume e') :
    Steps f { f with engine := e' } ∧ ∀ waking (g : Fleet),
      Steps g { g with engine := (resume waking g.engine).2 } := by
  rcases e₀.play_cases t overrun with ⟨r', e₁, e₂, -, -, h⟩ | ⟨w, e₁, kept', h⟩
  · rw [hp] at h
    cases h
  · rw [hp] at h
    cases h
    refine ⟨steps_elsewhere (kept.trans kept'), fun waking g => ?_⟩
    dsimp only [Engine.endTurn]
    split_ifs
    · exact steps_reclaimQuietly g
    · exact .refl

/-- And what an action does that has to wait, before and after. -/
theorem Ready.wait (run : Steps (idle e) f) {w : Wait}
    {resume : Waking → Engine → a.Reply × Engine} {e' : Engine} (h : Ready f a next own)
    (hp : f.engine.perform a = .wait w resume e') :
    ∃ g, Onward own own f g ∧ g.engine = e' ∧
      Asleep g own fun waking e => (next (resume waking e).1, (resume waking e).2) := by
  cases h with
  | free beside own rest =>
    obtain ⟨rfl, after⟩ := perform_wait own hp
    refine ⟨f, .refl _ _, rfl, by simp, fun g _ _ waking => ?_⟩
    exact ⟨g, [], .refl _ _, (after waking g.engine).symm, .free (rest _)⟩
  | @busy n x q k hx alive hs same made =>
    have keeps := Steps.keeps (R := fun j => settlement j.id)
      (fun cfg worker job => Worker.settlement_process cfg worker job) run (List.mem_of_getElem? hx)
    rw [hs] at keeps
    -- the settlement rules out that an errand sleeps, so it waits for the world outside
    rcases awake_of_allows keeps.1 hp with ⟨i, rfl⟩ | ⟨i, rfl⟩
    · obtain ⟨t, overrun, e₀, kept, he⟩ := f.engine.materialize_play i
      obtain ⟨before, after⟩ := play_wait kept (he.symm.trans hp)
      refine ⟨_, onward_beside [n] before, rfl, ?_, fun g steps held waking => ?_⟩
      · simpa using lt_of_getElem? hx
      · dsimp only
        rw [same]
        exact (onward_beside [n] (after waking g)).answer ((held n (by simp)).trans hx)
          (.supply _ alive hs) alive rfl made
    · obtain ⟨t, overrun, e₀, kept, he⟩ := f.engine.callAdapter_play i
      obtain ⟨before, after⟩ := play_wait kept (he.symm.trans hp)
      have hx' : (f.errands.set n { x with stage := .calling i q })[n]? =
          some { x with stage := .calling i q } := List.getElem?_set_self (lt_of_getElem? hx)
      refine ⟨_, (onward_beside [n] before).trans (onward_move hx (.depart alive hs)), rfl, ?_,
        fun g steps held waking => ?_⟩
      · simpa using lt_of_getElem? hx
      · dsimp only
        rw [same]
        exact (onward_beside [n] (after waking g)).answer ((held n (by simp)).trans hx')
          (.arrive _ rfl) alive rfl made

theorem Engaged.range {p : Plan α} (h : Engaged f own p) : ∀ m ∈ own, m < f.errands.length := by
  cases h with
  | free => simp
  | busy hx => simpa using lt_of_getElem? hx

/-- A plan stands where it stood as long as its errand does. -/
theorem Engaged.stay {p : Plan α} (h : Engaged f own p)
    (held : ∀ m ∈ own, g.errands[m]? = f.errands[m]?) : Engaged g own p := by
  cases h with
  | free made => exact .free made
  | busy hx alive hs made => exact .busy ((held _ (by simp)).trans hx) alive hs made

theorem Asleep.stay {resume : Waking → Engine → Plan α × Engine} (h : Asleep f own resume)
    (steps : Steps f g) (held : ∀ m ∈ own, g.errands[m]? = f.errands[m]?) :
    Asleep g own resume := by
  refine ⟨fun m hm => Nat.lt_of_lt_of_le (h.range m hm) steps.length_le, fun k later same => ?_⟩
  exact h.resumes k (steps.trans later) fun m hm => (same m hm).trans (held m hm)

/-- A plan that wakes up because its wait is over. -/
theorem Asleep.wake {resume : Waking → Engine → Plan α × Engine} (h : Asleep f own resume)
    {w : Wait} {waking : Waking} {e' : Engine} (hw : w.over? f.engine = some (waking, e')) :
    ∃ g own', Onward own own' f g ∧ g.engine = (resume waking e').2 ∧
      Engaged g own' (resume waking e').1 := by
  have steps : Steps f { f with engine := e' } := steps_elsewhere (Engine.over?_keeps hw)
  obtain ⟨g, own', onward, hg⟩ := h.resumes { f with engine := e' } steps (fun _ _ => rfl) waking
  exact ⟨g, own', (onward_beside own steps).trans onward, hg⟩

end Fleet

end Courier
