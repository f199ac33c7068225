import Courier.Proofs.Queue.WellFormed
import Courier.Proofs.Solo.Budget

/-! Over a whole shift the account of a job stays in order, whatever is brought and tidied up beside
the worker. Whoever lies in the dead-letter queue stays there: only a replay could wake it, and that
starts a job of its own. -/

namespace Courier

open Plan

variable {worker : String} {j : Job} {e e' : Engine} {s : Stint} {h : List Moment}

namespace Account

/-- A cycle that does not crash has let go of the job. -/
theorem finish {r : Except Failure Nat} (acc : Account worker j s h e) (ended : s.Ends r)
    (sound : r ≠ .error .crash) : Account worker j .loose h e := by
  obtain crash | rfl | rfl | rfl := ended
  · exact absurd crash sound
  · exact acc
  · refine ⟨acc.keyed, trivial, fun unknown => ⟨Or.inl rfl, (acc.before unknown).2⟩, acc.after⟩
  · refine ⟨acc.keyed, trivial, fun unknown => ⟨Or.inl rfl, (acc.before unknown).2⟩, ?_⟩
    intro taken strained
    obtain ⟨k, -, fits⟩ := acc.after taken strained
    exact fits.elim

/-- A caller brings a job under a new id. -/
theorem bring (acc : Account worker j s h e) (fresh : j.attemptCount = 0) (k : Job)
    (new : ¬ Brought k.id h) :
    Account worker j s (h ++ [⟨e, .enqueued k (e.enqueue k).1⟩]) (e.enqueue k).2 := by
  obtain ⟨kept, made⟩ := Engine.enqueue_effect k e
  have keyed : (e.enqueue k).2.queue.Keyed := by
    rcases made with made | made
    · exact made.keyed acc.keyed
    · exact made.keyed acc.keyed
  have free : ∀ key, (e.enqueue k).2.attemptState? key = e.attemptState? key :=
    fun key => kept.attemptState? nofun key
  have uncalled : tally j.id (h ++ [⟨e, .enqueued k (e.enqueue k).1⟩]) = tally j.id h :=
    tally_snoc _ _ _
  refine ⟨keyed, by rw [uncalled]; exact acc.turn, ?_, ?_⟩
  · intro unknown
    have other : k.id ≠ j.id := fun same =>
      unknown ⟨_, List.mem_append_right _ (List.mem_singleton_self _), k, rfl, same⟩
    have unknown : ¬ Brought j.id h := fun ⟨m, hm, brought⟩ =>
      unknown ⟨m, List.mem_append_left _ hm, brought⟩
    obtain ⟨idle, none_, absent, unwritten⟩ := acc.before unknown
    rw [outcomesFor, uncalled, Engine.enqueue_passes k e other]
    exact ⟨idle, none_, absent, fun l hl => (free _).trans (unwritten l hl)⟩
  · rintro ⟨m, hm, handle, hw, accepted⟩ strained
    rw [outcomesFor, uncalled] at strained ⊢
    rcases List.mem_append.1 hm with hm | hm
    · have other : k.id ≠ j.id := fun same => new ⟨m, hm, j, by rw [hw]; rfl, same.symm⟩
      obtain ⟨l, stores, fits⟩ := acc.after ⟨m, hm, handle, hw, accepted⟩ strained
      exact ⟨l, stores.of_same (Engine.enqueue_passes k e other), fits.of_same (free _)⟩
    · -- this is the moment at which it is taken in, so nothing has been done under its id before
      obtain rfl := List.mem_singleton.1 hm
      injection hw with hk ok
      subst hk
      obtain ⟨sound, waits, now, stored⟩ := Engine.enqueue_accepted ok accepted
      obtain ⟨idle, none_, -, unwritten⟩ := acc.before new
      have calls : (tally k.id h).outcomes.length = 0 := congrArg List.length none_
      have some_ : 0 < k.maxAttempts := Nat.pos_of_ne_zero ((Job.check_ok_iff k).1 sound).2.1
      refine ⟨_, ⟨stored, rfl, rfl⟩, ?_⟩
      rw [calls]
      rcases idle with rfl | rfl <;>
        exact Or.inl ⟨waits, fresh, some_, (free _).trans (unwritten k rfl)⟩

/-- Between the cycles leases that have run out are taken back, and completed jobs forgotten. -/
theorem tidy {a : Action} {r : a.Reply} (acc : Account worker j .loose h e)
    (answers : e.Answers a r e') (apart : a.store? ≠ some .attempts)
    (unnoted : ∀ t : Tally, t.note j.id (.deed ⟨a, r⟩) = t)
    (tidying : ∀ c, Deed.made? ⟨a, r⟩ = some c → c = .reclaim ∨ ∃ cutoff, c = .prune cutoff) :
    Account worker j .loose (h ++ [⟨e, .deed ⟨a, r⟩⟩]) e' := by
  have free : ∀ key, e'.attemptState? key = e.attemptState? key :=
    fun key => answers.kept.attemptState? apart key
  refine ⟨answers.made.keyed acc.keyed, trivial, ?_, ?_⟩
  · rw [brought_snoc_deed, outcomesFor, tally_snoc, unnoted]
    intro unknown
    obtain ⟨idle, none_, absent, unwritten⟩ := acc.before unknown
    have same := answers.made.tidied tidying fun k hk => by
      rw [absent] at hk
      cases hk
    exact ⟨idle, none_, same.trans absent, fun k hk => (free _).trans (unwritten k hk)⟩
  · rw [takenIn_snoc_deed, outcomesFor, tally_snoc, unnoted]
    intro taken strained
    obtain ⟨k, stores, fits⟩ := acc.after taken strained
    have same := answers.made.tidied tidying fun l hl => by
      obtain rfl : k = l := Option.some.inj (stores.stored.symm.trans hl)
      exact fits.imp (·.1) (·.1)
    exact ⟨k, stores.of_same same, fits.of_same (free _)⟩

/-- What happens elsewhere leaves the account as it is. -/
theorem elsewhere (acc : Account worker j s h e)
    (same : e'.queue = e.queue ∧ e'.attempts = e.attempts) : Account worker j s h e' := by
  have free : ∀ key, e'.attemptState? key = e.attemptState? key := fun key => by
    rw [Engine.attemptState?, Engine.attemptState?, same.2]
  refine ⟨by rw [same.1]; exact acc.keyed, acc.turn, fun unknown => ?_, fun taken strained => ?_⟩
  · obtain ⟨idle, none_, absent, unwritten⟩ := acc.before unknown
    exact ⟨idle, none_, by rw [same.1]; exact absent, fun k hk => (free _).trans (unwritten k hk)⟩
  · obtain ⟨k, stores, fits⟩ := acc.after taken strained
    exact ⟨k, stores.of_same (by rw [same.1]), fits.of_same (free _)⟩

end Account

/-- A lease that returns the job under `id`. -/
def Moment.Leases (id : JobId) (m : Moment) : Prop :=
  ∃ worker batch visibility jobs k,
    m.what = .deed ⟨.leaseJobs worker batch visibility, .ok jobs⟩ ∧ k ∈ jobs ∧ k.id = id

/-- A job that was once dead-lettered is so for good, and no lease returns it. -/
structure Rests (id : JobId) (h : List Moment) (e : Engine) : Prop where
  stays : ∀ m ∈ h, m.before.Buried id → e.Buried id
  ordered : h.Pairwise fun m m' => m.before.Buried id → m'.before.Buried id
  unleased : ∀ m ∈ h, m.before.Buried id → ¬ m.Leases id

theorem Rests.empty (id : JobId) (e : Engine) : Rests id [] e :=
  ⟨List.forall_mem_nil _, .nil, List.forall_mem_nil _⟩

theorem Rests.snoc {id : JobId} {v : Happening} (rests : Rests id h e)
    (still : e.Buried id → e'.Buried id ∧ ¬ Moment.Leases id ⟨e, v⟩) :
    Rests id (h ++ [⟨e, v⟩]) e' where
  stays m hm dead := by
    rcases List.mem_append.1 hm with hm | hm
    · exact (still (rests.stays m hm dead)).1
    · obtain rfl := List.mem_singleton.1 hm
      exact (still dead).1
  ordered := by
    refine List.pairwise_append.2 ⟨rests.ordered, List.pairwise_singleton _ _, ?_⟩
    intro m hm m' hm'
    obtain rfl := List.mem_singleton.1 hm'
    exact rests.stays m hm
  unleased m hm dead := by
    rcases List.mem_append.1 hm with hm | hm
    · exact rests.unleased m hm dead
    · obtain rfl := List.mem_singleton.1 hm
      exact (still dead).2

namespace Worker

theorem shift_accounted (fresh : j.attemptCount = 0) (bounded : j.maxAttempts < 2 ^ 32) :
    (shift worker).Accounted (stint worker j.id) .loose Stint.Ends (Account worker j) where
  starts := by
    rintro e ⟨queue, attempts⟩
    have unwritten : ∀ key, e.attemptState? key = none := fun key => by
      rw [Engine.attemptState?, attempts]
      rfl
    refine ⟨by rw [queue]; exact Queue.keyed_empty, trivial, fun _ => ?_, ?_⟩
    · exact ⟨Or.inl rfl, rfl, by rw [queue]; rfl, fun k _ => unwritten _⟩
    · rintro ⟨m, hm, -⟩
      cases hm
  cycle := by
    rintro p ⟨cfg, rfl⟩
    exact stint_runOnce cfg worker j.id
  act acc allowed inMemory answers := acc.act bounded allowed inMemory answers
  finish acc ended sound := acc.finish ended sound
  beside := by
    intro s h e e' idle v acc rest allowed meets
    cases meets with
    | enqueued k => exact acc.bring fresh k allowed
    | @deed a r _ own done =>
      have answers : e.Answers a r e' := Or.inr ⟨own, done⟩
      cases a with
      | reclaimJobs =>
        obtain rfl := rest allowed
        refine acc.tidy answers (by rintro ⟨⟩) (fun _ => rfl) fun c hc => ?_
        cases r <;> cases hc
        exact Or.inl rfl
      | pruneJobs cutoff =>
        obtain rfl := rest allowed
        refine acc.tidy answers (by rintro ⟨⟩) (fun _ => rfl) fun c hc => ?_
        cases r <;> cases hc
        exact Or.inr ⟨cutoff, rfl⟩
      | _ => exact allowed.elim
  elsewhere acc same := acc.elsewhere same

variable {c : Option (Attempt Nat)}

/-- At every point of a shift the account of every job is in order. -/
theorem account (fresh : j.attemptCount = 0) (bounded : j.maxAttempts < 2 ^ 32)
    (run : (shift worker).Run h e c) : ∃ s, Account worker j s h e ∧ (c = none → s = .loose) := by
  obtain ⟨s, acc, idle, -⟩ := (shift_accounted fresh bounded).run run
  exact ⟨s, acc, idle⟩

/-- Whatever happens in a shift, the dead rest. -/
theorem dead_rests (fresh : j.attemptCount = 0) (bounded : j.maxAttempts < 2 ^ 32)
    (run : (shift worker).Run h e c) : Rests j.id h e := by
  induction run with
  | start => exact .empty _ _
  | begin _ _ ih => exact ih
  | finish _ _ ih => exact ih
  | @act h e e' a next r run inMemory answers ih =>
    obtain ⟨s, acc, -⟩ := account fresh bounded run
    have stays : e.Buried j.id → e'.Buried j.id :=
      answers.made.buried acc.keyed fun c => Deed.newId?_of_made
    refine ih.snoc fun dead => ⟨stays dead, ?_⟩
    rintro ⟨worker, batch, visibility, jobs, k, hw, hk, same⟩
    cases hw
    obtain ⟨jobs, hr, ⟨l, until_, stored, waits, -⟩ | ⟨-, others⟩⟩ :=
      answers.leased inMemory acc.keyed j.id
    · obtain ⟨l', stored', hs⟩ := dead
      obtain rfl : l = l' := Option.some.inj (stored.symm.trans stored')
      rw [waits] at hs
      cases hs
    · cases hr
      exact others k hk same
  | @beside h e e' c v run allowed meets ih =>
    obtain ⟨s, acc, -⟩ := account fresh bounded run
    cases meets with
    | enqueued k =>
      refine ih.snoc fun dead => ⟨?_, fun ⟨_, _, _, _, _, hw, _⟩ => by cases hw⟩
      -- a dead job was brought once, so the new one has another id
      have other : k.id ≠ j.id := by
        intro same
        obtain ⟨l, stored, -⟩ := dead
        rw [(acc.before (same ▸ allowed)).2.2.1] at stored
        cases stored
      rwa [Engine.Buried, Engine.enqueue_passes k e other]
    | @deed a r _ own done =>
      refine ih.snoc fun dead => ⟨?_, ?_⟩
      · exact (Engine.perform_made own done).buried acc.keyed (fun c => Deed.newId?_of_made) dead
      · rintro ⟨worker, batch, visibility, jobs, k, hw, -⟩
        cases hw
        exact allowed
  | @elsewhere h e e' c _ same ih =>
    refine ⟨fun m hm dead => ?_, ih.ordered, ih.unleased⟩
    rw [Engine.Buried, same.1]
    exact ih.stays m hm dead

/-- The budget of attempts. A job that was taken in untried, and whose every call meets a failure of
the environment, has after each cycle had as many calls as attempts: fewer than it may have while it
waits, and exactly as many when it lies in the dead-letter queue. No lease returns it from then on.
Attempts are counted in 32 bits. -/
theorem retry_budget (run : (shift worker).Run h e none) (fresh : j.attemptCount = 0)
    (bounded : j.maxAttempts < 2 ^ 32) (taken : TakenIn j h)
    (strained : ∀ o ∈ outcomesFor j.id h, o.isEnvironmentFailure = true) :
    (∃ k, e.queue.get? j.id = some k ∧
      ((k.state = .queued ∧ k.attemptCount = (outcomesFor j.id h).length ∧
          (outcomesFor j.id h).length < j.maxAttempts) ∨
        (k.state = .dlq ∧ k.dlqState = some .awaitingManualAction ∧
          k.attemptCount = j.maxAttempts ∧ (outcomesFor j.id h).length = j.maxAttempts))) ∧
    ∀ past m future, h = past ++ m :: future → m.before.Buried j.id →
      ∀ m' ∈ m :: future, ¬ m'.Leases j.id := by
  constructor
  · obtain ⟨s, acc, idle⟩ := account fresh bounded run
    obtain rfl := idle rfl
    obtain ⟨k, stores, ⟨waits, count, fewer, -⟩ | dead⟩ := acc.after taken strained
    · exact ⟨k, stores.stored, Or.inl ⟨waits, count, fewer⟩⟩
    · exact ⟨k, stores.stored, Or.inr dead⟩
  · rintro past m future rfl dead m' hm'
    obtain ⟨-, ordered, unleased⟩ := dead_rests fresh bounded run
    have dead' : m'.before.Buried j.id := by
      rcases List.mem_cons.1 hm' with rfl | hm'
      · exact dead
      · exact (List.pairwise_cons.1 (List.pairwise_append.1 ordered).2.1).1 m' hm' dead
    exact unleased m' (List.mem_append_right _ hm') dead'

/-- The adapter never gets through. -/
def downtime : (a : Action) → Option a.Reply
  | .materialize _ => some .noMaterializer
  | .drawUnit => some Engine.middleUnit
  | .callAdapter _ => some (.outcome (.environment "down"))
  | _ => none

/-- One failure opens a circuit. -/
def touchyConfig : Config := { Config.usual with circuit := { failureThreshold := 1 } }

/-- It may be tried once. -/
def onceOnly : Job := { Queue.sampleJob 1 "post-1" with maxAttempts := 1 }

/-- It may be tried twice. -/
def twiceAtMost : Job :=
  { Job.create ⟨.ofNat 2⟩ ⟨"post-2", "y", "account", "post", .null, none⟩ .epoch with
    maxAttempts := 2 }

/-- A caller brings a job. -/
def bring (j : Job) (s : Scene) : Scene :=
  ⟨s.past ++ [⟨s.engine, .enqueued j (s.engine.enqueue j).1⟩], (s.engine.enqueue j).2, s.cycle⟩

theorem reached_bring {s : Scene} (h : s.Reached (shift worker)) (new : ¬ Brought j.id s.past) :
    (bring j s).Reached (shift worker) := .beside h new (.enqueued j)

theorem takenIn_bring {s : Scene}
    (accepted : (s.engine.enqueue j).1.toOption.any Handle.accepted = true) :
    TakenIn j (bring j s).past := by
  obtain ⟨handle, hr, accepted⟩ := Option.any_eq_true _ _ |>.1 accepted
  cases hx : (s.engine.enqueue j).1 with
  | error =>
    rw [hx] at hr
    cases hr
  | ok handle' =>
    rw [hx] at hr
    cases hr
    exact ⟨_, List.mem_append_right _ (List.mem_singleton_self _), handle, congrArg _ hx, accepted⟩

theorem takenIn_bring_other {s : Scene} (taken : TakenIn j s.past) (k : Job) :
    TakenIn j (bring k s).past := by
  obtain ⟨m, hm, taken⟩ := taken
  exact ⟨m, List.mem_append_left _ hm, taken⟩

theorem takenIn_sleep {s : Scene} (taken : TakenIn j s.past) (ms : Nat) :
    TakenIn j (s.sleep ms).past := taken

theorem takenIn_cycle {s : Scene} (taken : TakenIn j s.past) (p : Attempt Nat)
    (outside : (a : Action) → Option a.Reply) (n : Nat) :
    TakenIn j ((s.start p).turns outside n).past := by
  obtain ⟨m, hm, taken⟩ := taken
  exact ⟨m, (s.start p).mem_past_turns hm outside n, taken⟩

theorem reached_sleep {s : Scene} (h : s.Reached (shift worker)) (ms : Nat) :
    (s.sleep ms).Reached (shift worker) := Shift.Run.elsewhere h ⟨rfl, rfl⟩

theorem reached_cycle {s : Scene} (h : s.Reached (shift worker)) (idle : s.cycle.isNone = true)
    (cfg : Config) (outside : (a : Action) → Option a.Reply) (n : Nat) :
    ((s.start (runOnce cfg worker)).turns outside n).Reached (shift worker) :=
  (h.start idle ⟨cfg, rfl⟩).turns outside n

/-- The circuit of the first job's route is open. -/
def daybreak : Scene where
  past := []
  engine := { Engine.create touchyConfig .epoch .quiet with
    breaker := Breaker.failure touchyConfig.circuit onceOnly.routeKey .epoch .empty }
  cycle := none

/-- So the job is deferred. -/
def deferredOnce : Scene :=
  ((bring onceOnly daybreak).start (runOnce touchyConfig "w-1")).turns downtime 30

/-- A minute later it is tried, in vain. -/
def buriedNext : Scene :=
  ((deferredOnce.sleep 60000).start (runOnce touchyConfig "w-1")).turns downtime 30

/-- Another job comes and is tried for the first time. -/
def triedAfterwards : Scene :=
  ((bring twiceAtMost buriedNext).start (runOnce touchyConfig "w-1")).turns downtime 30

theorem triedAfterwards_reached : triedAfterwards.Reached (shift "w-1") := by
  have dawned : daybreak.Reached (shift "w-1") := Shift.Run.start ⟨rfl, rfl⟩
  have deferred : deferredOnce.Reached (shift "w-1") :=
    reached_cycle (reached_bring dawned (by decide +kernel)) (by decide +kernel) _ _ _
  have rested : (deferredOnce.sleep 60000).Reached (shift "w-1") :=
    reached_sleep deferred 60000
  have buried : buriedNext.Reached (shift "w-1") :=
    reached_cycle rested (by decide +kernel) _ _ _
  have new : ¬ Brought twiceAtMost.id buriedNext.past := by decide +kernel
  have brought : (bring twiceAtMost buriedNext).Reached (shift "w-1") :=
    reached_bring buried new
  exact reached_cycle brought (by decide +kernel) _ _ _

theorem takenIn_onceOnly : TakenIn onceOnly triedAfterwards.past := by
  have taken : TakenIn onceOnly (bring onceOnly daybreak).past := takenIn_bring (by decide +kernel)
  have deferred : TakenIn onceOnly deferredOnce.past := takenIn_cycle taken _ _ _
  have rested : TakenIn onceOnly (deferredOnce.sleep 60000).past := takenIn_sleep deferred _
  have buried : TakenIn onceOnly buriedNext.past := takenIn_cycle rested _ _ _
  have brought : TakenIn onceOnly (bring twiceAtMost buriedNext).past :=
    takenIn_bring_other buried _
  exact takenIn_cycle brought _ _ _

theorem takenIn_twiceAtMost : TakenIn twiceAtMost triedAfterwards.past := by
  have taken : TakenIn twiceAtMost (bring twiceAtMost buriedNext).past :=
    takenIn_bring (by decide +kernel)
  exact takenIn_cycle taken _ _ _

/-- After the three cycles one job is dead and the other waits, each called for once. -/
theorem retry_budget_downtime :
    (∃ k, triedAfterwards.engine.queue.get? onceOnly.id = some k ∧ k.state = .dlq ∧
      (outcomesFor onceOnly.id triedAfterwards.past).length = 1) ∧
    (∀ past m future, triedAfterwards.past = past ++ m :: future → m.before.Buried onceOnly.id →
      ∀ m' ∈ m :: future, ¬ m'.Leases onceOnly.id) ∧
    ∃ k, triedAfterwards.engine.queue.get? twiceAtMost.id = some k ∧ k.state = .queued ∧
      k.attemptCount = 1 := by
  have run : (shift "w-1").Run triedAfterwards.past triedAfterwards.engine none := by
    have idle : triedAfterwards.cycle = none := Option.isNone_iff_eq_none.1 (by decide +kernel)
    exact idle ▸ (triedAfterwards_reached : Shift.Run _ _ _ triedAfterwards.cycle)
  obtain ⟨⟨k, stored, budget⟩, never⟩ := retry_budget run rfl (by decide) takenIn_onceOnly
    (by decide +kernel)
  obtain ⟨l, stored', budget'⟩ := (retry_budget run rfl (by decide) takenIn_twiceAtMost
    (by decide +kernel)).1
  have calls : (outcomesFor onceOnly.id triedAfterwards.past).length = 1 := by decide +kernel
  have calls' : (outcomesFor twiceAtMost.id triedAfterwards.past).length = 1 := by decide +kernel
  refine ⟨⟨k, stored, ?_, calls⟩, never, l, stored', ?_⟩
  · rcases budget with ⟨-, -, fewer⟩ | ⟨dead, -⟩
    · rw [calls] at fewer
      exact absurd fewer (by decide)
    · exact dead
  · rcases budget' with ⟨waits, count, -⟩ | ⟨-, -, -, all⟩
    · exact ⟨waits, count.trans calls'⟩
    · rw [calls'] at all
      exact absurd all (by decide)

end Worker

end Courier
