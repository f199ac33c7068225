import Mathlib.Data.Fintype.EquivFin
import Courier.Proofs.Fleet.Orderly
import Courier.Proofs.Queue.Selection
import Courier.Proofs.Time

/-! What may still become of a job. As long as it is waiting or leased and no attempt for it is in
the log, nothing keeps a worker from calling the adapter for it: leases run out, gates open, and a
worker that nobody has heard of comes by. -/

namespace Courier

open Plan

namespace Queue

/-- At the end of time every lease has run out, and every job that waits is due. -/
theorem exists_eligible {q : Queue} (expiring : q.Expiring) {id : JobId} {j : Job}
    (stored : q.get? id = some j) (active : j.isActive = true) :
    ∃ k, (q.reclaim .last).2.get? id = some k ∧ isEligible .last k = true ∧
      k.intent = j.intent := by
  rw [get?_reclaim, stored, Option.map_some]
  rcases (isActive_iff j).1 active with hs | hs
  · have waiting : isExpired .last j = false := by simp [isExpired, hs]
    refine ⟨j, by rw [waiting]; rfl, ?_, rfl⟩
    simp [isEligible, hs, Timestamp.le_last]
  · obtain ⟨t, ht⟩ := Option.isSome_iff_exists.1 (expiring id j stored hs)
    have expired : isExpired .last j = true := by simp [isExpired, hs, ht, Timestamp.le_last]
    refine ⟨requeue .last j, by rw [expired]; rfl, ?_, rfl⟩
    simp [isEligible, requeue, Timestamp.le_last]

/-- A lease that is large enough takes every job that may be leased. -/
theorem get?_lease_all {q : Queue} (keyed : q.Keyed) {id : JobId} {k : Job} {now : Timestamp}
    (stored : q.get? id = some k) (eligible : isEligible now k = true) (worker : String)
    (visibility : Span) :
    (q.lease worker (q.eligible now).length visibility now).2.get? id =
      some (leaseTo worker (now.add visibility) now k) := by
  rcases get?_lease keyed worker (q.eligible now).length visibility now id with
    ⟨j, hj, -, -, hget⟩ | ⟨hne, -⟩
  · rw [stored] at hj
    rw [hget, Option.some.inj hj]
  · refine absurd (keyed id k stored) (hne (leaseTo worker (now.add visibility) now k) ?_)
    rw [lease, List.take_length]
    exact List.mem_map_of_mem (mem_eligible stored eligible)

end Queue

namespace Engine

/-- The gates let everybody through, the clock is at its end, and no store call fails. -/
def opened (e : Engine) : Engine :=
  { create { Config.usual with rateLimit := ⟨none, none, []⟩ } .last .quiet with
    queue := e.queue
    inbox := e.inbox
    attempts := e.attempts
    ids := e.ids }

theorem opened_kept (e : Engine) : KeptBut none e e.opened :=
  ⟨fun _ => rfl, fun _ => rfl, fun _ => rfl⟩

theorem opened_call {γ : Type} (c : StoreCall) (e : Engine) (offline : Except Error γ)
    (body : Engine → Except Error γ × Engine) :
    e.opened.call c offline body = ((body e.opened).1.mapError .error, (body e.opened).2) :=
  call_through rfl rfl offline body

theorem opened_now (e : Engine) : e.opened.now = .last := by
  show Timestamp.last.add (.ofMillis 0) = .last
  decide

theorem opened_reclaimJobs (e : Engine) : ∃ n, e.opened.perform .reclaimJobs =
    .reply (.ok n) { e.opened with queue := (e.queue.reclaim .last).2 } := by
  rw [← opened_now e]
  simp only [perform, replied, reclaimJobs, opened_call]
  exact ⟨_, rfl⟩

theorem opened_leaseJobs (e : Engine) (worker : String) (batch : Nat) (visibility : Span) :
    ∃ jobs, e.opened.perform (.leaseJobs worker batch visibility) = .reply (.ok jobs)
      { e.opened with queue := (e.queue.lease worker batch visibility .last).2 } := by
  rw [← opened_now e]
  simp only [perform, replied, leaseJobs, opened_call]
  exact ⟨_, rfl⟩

theorem opened_beginAttempt {e : Engine} {key : String} (free : e.attemptState? key = none) :
    e.opened.perform (.beginAttempt key) = .reply (.ok .first)
      { e.opened with
        attempts := e.attempts.insert key ⟨key, .inProgress, e.opened.now, .null⟩ } := by
  have unlogged : Table.get? e.opened.attempts key = none := by
    simpa [attemptState?, opened] using free
  simp only [perform, replied, beginAttempt, opened_call, AttemptLog.begin, unlogged]
  rfl

theorem opened_renewLease {e : Engine} {id : JobId} {worker : String} {j : Job}
    (held : e.queue.Holds id worker j) (visibility : Span) :
    e.opened.perform (.renewLease id worker visibility) =
      .reply (.ok (e.opened.now.add visibility))
        { e.opened with
          queue := e.queue.put (Queue.renewed (e.opened.now.add visibility) e.opened.now j) } := by
  obtain ⟨hget, hs, hw⟩ := held
  have held : e.opened.queue.held id worker = .ok j := by
    simp [Queue.held, opened, hget, Job.isLeasedBy, hs, hw]
  simp only [perform, replied, renewLease, opened_call, onQueue, Queue.heartbeat, held]
  rfl

end Engine

/-- With the gates open the plan comes to an adapter call. No identifier is drawn and no job is taken
in on the way. -/
inductive ComesToCall : Engine → Attempt Disposition → Prop where
  | there (e : Engine) (i : Intent) (next : AdapterReply → Attempt Disposition) :
      ComesToCall e (.step (.callAdapter i) next)
  | act {e e' : Engine} {a : Action} {next : a.Reply → Attempt Disposition} {r : a.Reply} :
      a.isForeign = false → e.opened.perform a = .reply r e' → e'.ids = e.ids →
      e'.inbox = e.inbox → (∀ id, e.queue.get? id = none → e'.queue.get? id = none) →
      ComesToCall e' (next r) → ComesToCall e (.step a next)
  | supply {e : Engine} {i : Intent} {next : ContentReply → Attempt Disposition}
      (r : ContentReply) : ComesToCall e (next r) → ComesToCall e (.step (.materialize i) next)

/-- An errand for `job` that is about to go on with `p`. -/
def Errand.onWay (worker : String) (job : Job) (past : List Deed) (p : Attempt Disposition) :
    Errand :=
  ⟨worker, job, past, .acting p, false⟩

namespace Fleet

variable {beside : Action → Bool} {e e' : Engine} {f g : Fleet}

/-- The next identifier stays new while no job is taken in. -/
theorem DrawsNew.mono {f g : Fleet} (h : f.DrawsNew) (ids : g.engine.ids = f.engine.ids)
    (inbox : g.engine.inbox = f.engine.inbox)
    (queue : ∀ id, f.engine.queue.get? id = none → g.engine.queue.get? id = none)
    (errands : ∀ y ∈ g.errands, y.job.id ≠ ⟨f.engine.ids.next⟩) : g.DrawsNew := by
  obtain ⟨⟨unstored, -⟩, unused⟩ := h
  refine ⟨⟨?_, ?_⟩, ?_⟩
  · rw [ids]
    exact queue _ unstored
  · rw [ids]
    exact errands
  · rw [ids, inbox]
    exact unused

theorem DrawsNew.of_last {errands : List Errand} {x x' : Errand} (h : DrawsNew ⟨e, errands ++ [x]⟩)
    (hj : x'.job = x.job) (ids : e'.ids = e.ids) (inbox : e'.inbox = e.inbox)
    (queue : ∀ id, e.queue.get? id = none → e'.queue.get? id = none) :
    DrawsNew ⟨e', errands ++ [x']⟩ := by
  refine h.mono ids inbox queue fun y hy => ?_
  rcases List.mem_append.1 hy with hy | hy
  · exact h.1.2 y (List.mem_append_left _ hy)
  · rw [List.mem_singleton.1 hy, hj]
    exact h.1.2 x (List.mem_append_right _ (List.mem_singleton_self _))

theorem OrderlyStep.move_last {errands : List Errand} {x x' : Errand}
    (draws : DrawsNew ⟨e, errands ++ [x]⟩) (move : x.Move e e' x') :
    OrderlyStep beside ⟨e, errands ++ [x]⟩ ⟨e', errands ++ [x']⟩ := by
  have step : OrderlyStep beside ⟨e, errands ++ [x]⟩
      ⟨e', (errands ++ [x]).set errands.length x'⟩ := .move draws (by simp) move
  simpa using step

theorem OrderlyStep.opens (errands : List Errand) :
    OrderlyStep beside ⟨e, errands⟩ ⟨e.opened, errands⟩ :=
  .elsewhere e.opened_kept

end Fleet

/-- The last errand of a fleet goes where its plan leads. -/
theorem ComesToCall.run {e : Engine} {p : Attempt Disposition} (h : ComesToCall e p)
    {beside : Action → Bool} {errands : List Errand} {worker : String} {job : Job}
    {past : List Deed} (draws : Fleet.DrawsNew ⟨e, errands ++ [.onWay worker job past p]⟩) :
    ∃ e' past' i next,
      Fleet.OrderlySteps beside ⟨e, errands ++ [.onWay worker job past p]⟩
        ⟨e', errands ++ [⟨worker, job, past', .calling i next, false⟩]⟩ := by
  induction h generalizing past with
  | there e i next =>
    exact ⟨e, past, i, next, .single (.move_last draws (.depart rfl rfl))⟩
  | @act e e₁ a next r own done ids inbox queue _ ih =>
    obtain ⟨e', past', i, k, run⟩ := ih (draws.of_last rfl ids inbox queue)
    have atOpen : Fleet.DrawsNew ⟨e.opened, errands ++ [.onWay worker job past (.step a next)]⟩ :=
      draws
    exact ⟨e', past', i, k, .head (.opens _) (.head (.move_last atOpen (.act rfl rfl own done)) run)⟩
  | @supply e _ next r _ ih =>
    obtain ⟨e', past', i, k, run⟩ := ih (draws.of_last rfl rfl rfl fun _ h => h)
    exact ⟨e', past', i, k, .head (.move_last draws (.supply r rfl rfl)) run⟩

namespace Worker

theorem comesToCall_carryOut {e : Engine} (cfg : Config) {worker : String} {job : Job}
    (h : Holdings) {k : Job} (held : e.queue.Holds job.id worker k) (keyed : e.queue.Keyed) :
    ComesToCall e (carryOut cfg worker job h) := by
  refine .supply .noMaterializer (.act rfl (Engine.opened_renewLease held _) rfl rfl ?_ ?_)
  · intro id hid
    dsimp only
    rw [Queue.get?_put, if_neg, hid]
    intro he
    have stored : k.id = job.id := keyed job.id k held.1
    rw [he, Queue.renewed, stored, held.1] at hid
    cases hid
  · exact .act rfl rfl rfl rfl (fun _ h => h) <| .act rfl rfl rfl rfl (fun _ h => h) <|
      .there _ _ _

/-- Where the attempt is not in the log, the holder of a job gets as far as the adapter. -/
theorem comesToCall_process {e : Engine} (cfg : Config) {worker : String} {job : Job}
    (free : e.attemptState? job.attemptKey = none) {k : Job} (held : e.queue.Holds job.id worker k)
    (keyed : e.queue.Keyed) : ComesToCall e (process cfg worker job) := by
  have passage : ∀ e : Engine, ∃ b, e.opened.perform (.requestPassage job.routeKey) =
      .reply .granted { e.opened with breaker := b } := fun e => ⟨_, rfl⟩
  have room : ∀ (e : Engine) (now : Timestamp), ∃ l,
      e.opened.perform (.requestRoom job.routeKey now) =
        .reply .allow { e.opened with limiter := l } := fun e now => ⟨_, rfl⟩
  refine .act rfl rfl rfl rfl (fun _ h => h) ?_
  have waits : ∀ (e : Engine) (l : Span) (now : Timestamp),
      e.opened.perform (.pacingWait job.routeKey l now) = .reply .zero e.opened :=
    fun _ _ _ => rfl
  refine .act rfl (waits _ _ _) rfl rfl (fun _ h => h) ?_
  rw [if_neg (by decide)]
  obtain ⟨b, granted⟩ := passage e.opened.opened
  refine .act rfl granted rfl rfl (fun _ h => h) ?_
  rw [if_neg nofun]
  obtain ⟨l, allowed⟩ := room { e.opened.opened.opened with breaker := b } e.opened.now
  refine .act rfl allowed rfl rfl (fun _ h => h) ?_
  rw [if_neg nofun]
  refine .act rfl (Engine.opened_beginAttempt free) rfl rfl (fun _ h => h) ?_
  exact comesToCall_carryOut cfg _ held keyed

end Worker

namespace Fleet

variable {f : Fleet}

theorem Step.queueMoves {f g : Fleet} (step : Step f g) : ∃ o, f.engine.QueueMoves g.engine o := by
  cases step with
  | begin => exact ⟨none, Or.inl rfl⟩
  | move _ move =>
    rcases move.cases with ⟨a, r, ans⟩ | ⟨rfl, -, -⟩
    · exact ⟨_, ans.queue⟩
    · exact ⟨none, Or.inl rfl⟩
  | outside out => exact ⟨none, out.queue⟩

theorem Steps.expiring {e : Engine} (hq : e.queue = .empty) (hi : e.inbox = .empty)
    (run : Steps (idle e) f) : f.engine.queue.Expiring := by
  induction run with
  | refl =>
    rw [show (idle e).engine.queue = .empty from hq]
    exact Queue.expiring_empty
  | tail before step ih =>
    obtain ⟨o, same | ⟨c, x, ok, -⟩⟩ := step.queueMoves
    · rwa [same]
    · exact (Queue.Call.change ok).expiring (Steps.accounted hq hi before).keyed ih

theorem exists_idle (f : Fleet) : ∃ worker, f.IsIdle worker := by
  obtain ⟨worker, new⟩ := Infinite.exists_notMem_finset (f.errands.map Errand.worker).toFinset
  refine ⟨worker, fun x hx hw => absurd ?_ new⟩
  rw [List.mem_toFinset, ← hw]
  exact List.mem_map_of_mem hx

/-- A worker may come by and lease a job that waits or whose lease may run out. -/
theorem exists_leased (keyed : f.engine.queue.Keyed) (expiring : f.engine.queue.Expiring)
    {id : JobId} {j : Job} (stored : f.engine.queue.get? id = some j) (active : j.isActive = true)
    {worker : String} (idle : f.IsIdle worker) :
    ∃ e' job, OrderlySteps (fun _ => true) f { f with engine := e' } ∧
      e'.queue.Holds id worker job ∧ job.intent = j.intent ∧ e'.queue.Keyed ∧
      e'.attempts = f.engine.attempts ∧ e'.ids = f.engine.ids ∧ e'.inbox = f.engine.inbox ∧
      ∀ id, f.engine.queue.get? id = none → e'.queue.get? id = none := by
  obtain ⟨k, waits, eligible, same⟩ := Queue.exists_eligible expiring stored active
  obtain ⟨n, reclaims⟩ := Engine.opened_reclaimJobs f.engine
  generalize hq₁ : (f.engine.queue.reclaim .last).2 = q₁ at waits reclaims
  have keyed₁ : q₁.Keyed := hq₁ ▸ Queue.Change.reclaimed.keyed keyed
  let e₁ : Engine := { f.engine.opened with queue := q₁ }
  obtain ⟨jobs, leases⟩ := e₁.opened_leaseJobs worker (q₁.eligible .last).length .zero
  refine ⟨{ e₁.opened with
      queue := (q₁.lease worker (q₁.eligible .last).length .zero .last).2 },
    Queue.leaseTo worker (Timestamp.last.add .zero) .last k, ?_,
    ⟨Queue.get?_lease_all keyed₁ waits eligible worker .zero, rfl, rfl⟩, same,
    Queue.Change.leased.keyed keyed₁, rfl, rfl, rfl, ?_⟩
  · have nobody : ∀ w ∈ Action.reclaimJobs.lessee?, f.IsIdle w := fun w hw => by cases hw
    have own : ∀ w ∈ (Action.leaseJobs worker (q₁.eligible .last).length .zero).lessee?,
        f.IsIdle w := fun w hw => by
      cases hw
      exact idle
    exact .head (.opens f.errands) <| .head (.loop rfl nobody rfl rfl reclaims) <|
      .head (.opens f.errands) <| .single (.loop rfl own rfl rfl leases)
  · intro i hi
    rcases Queue.get?_lease keyed₁ worker (q₁.eligible .last).length .zero .last i with
      ⟨k, hk, -⟩ | ⟨-, hget⟩
    · rw [← hq₁, Queue.get?_reclaim, hi] at hk
      cases hk
    · dsimp only
      rw [hget, ← hq₁, Queue.get?_reclaim, hi]
      rfl

theorem callsFor_append (intentId : String) (id : JobId) (e : Engine) (xs : List Errand)
    {x : Errand} (forX : x.IsFor intentId id) :
    callsFor intentId id ⟨e, xs ++ [x]⟩ = callsFor intentId id ⟨e, xs⟩ + x.calls := by
  simp [callsFor, forX]

/-- A job that waits or is leased, with no attempt in the log, may be worked on until the adapter is
called for it. -/
theorem exists_again (keyed : f.engine.queue.Keyed) (expiring : f.engine.queue.Expiring)
    {id : JobId} {j : Job} (stored : f.engine.queue.get? id = some j) (active : j.isActive = true)
    (free : f.engine.attemptState? j.attemptKey = none) (draws : f.DrawsNew) :
    ∃ g, OrderlySteps (fun _ => true) f g ∧
      f.callsFor j.intentId id < g.callsFor j.intentId id := by
  obtain ⟨worker, idle⟩ := f.exists_idle
  obtain ⟨e', job, lease, held, same, keyed', attempts, ids, inbox, queue⟩ :=
    exists_leased keyed expiring stored active idle
  have hid : job.id = id := keyed' id job held.1
  have hj : j.id = id := keyed id j stored
  have key : job.attemptKey = j.attemptKey := by rw [Job.attemptKey, Job.attemptKey, same, hid, hj]
  have free' : e'.attemptState? job.attemptKey = none := by
    rw [Engine.attemptState?, attempts, key]
    exact free
  have held' : e'.queue.Holds job.id worker job := hid.symm ▸ held
  have begun : DrawsNew ⟨e', f.errands ++ [.begin .usual worker job]⟩ := by
    refine draws.mono ids inbox queue fun y hy => ?_
    rcases List.mem_append.1 hy with hy | hy
    · exact draws.1.2 y hy
    · rw [List.mem_singleton.1 hy]
      intro he
      have := draws.1.1
      rw [← he, show (Errand.begin .usual worker job).job.id = id from hid, stored] at this
      cases this
  obtain ⟨e'', past, i, next, onward⟩ :=
    (Worker.comesToCall_process .usual free' held' keyed').run begun
  refine ⟨_, (lease.tail (.begin .usual worker job idle)).trans onward, ?_⟩
  have forX : Errand.IsFor j.intentId id ⟨worker, job, past, .calling i next, false⟩ :=
    ⟨by rw [Job.intentId, Job.intentId, same], hid⟩
  rw [callsFor_append _ _ _ _ forX]
  exact Nat.lt_add_of_pos_right (Nat.succ_pos _)

end Fleet

end Courier
