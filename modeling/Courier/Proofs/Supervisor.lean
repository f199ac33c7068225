import Courier.Engine.Schedule
import Courier.Proofs.Queue.Run
import Courier.Proofs.Solo.Basic

/-! Recovery after a worker has fallen silent. Looking for silent workers touches no store, so a
check that fails has done nothing; one that finds any takes back exactly the leases that have run
out, whoever holds them, and none that still run. -/

namespace Courier

open Plan

variable {α β : Type}

namespace Schedule

/-- A plan is carried out part by part. -/
theorem run_bind (p : Plan α) (f : α → Plan β) (s : Schedule) :
    run (p.bind f) s = run (f (run p s).1) (run p s).2 := by
  induction p generalizing s with
  | done a => rfl
  | step a next ih =>
    rw [Plan.bind, run, run]
    split
    · exact ih _ _
    · exact ih _ _

theorem run_andThen_ok {p : Attempt α} {f : α → Attempt β} {s s' : Schedule} {a : α}
    (h : run p s = (.ok a, s')) : run (andThen p f) s = run (f a) s' := by
  rw [andThen, run_bind, h]

theorem run_andThen_error {p : Attempt α} {f : α → Attempt β} {s s' : Schedule} {x : Failure}
    (h : run p s = (.error x, s')) : run (andThen p f) s = (.error x, s') := by
  rw [andThen, run_bind, h]
  rfl

end Schedule

namespace Engine

/-- Nothing but the world around is different. -/
def MovesOn (e e' : Engine) : Prop := ∃ s, e' = { e with surroundings := s }

theorem MovesOn.refl (e : Engine) : e.MovesOn e := ⟨e.surroundings, rfl⟩

theorem MovesOn.trans {e e' e'' : Engine} (h : e.MovesOn e') (h' : e'.MovesOn e'') :
    e.MovesOn e'' := by
  obtain ⟨s, rfl⟩ := h
  obtain ⟨s', rfl⟩ := h'
  exact ⟨s', rfl⟩

/-- A store call that cannot do without its store fails with nothing done, or is carried out. -/
theorem call_moves {γ : Type} {c : StoreCall} {x : Error} {body : Engine → Except Error γ × Engine}
    {e e' : Engine} {r : Except Failure γ} (h : e.call c (.error x) body = (r, e')) :
    (e.MovesOn e' ∧ ∃ y, r = .error y) ∨
      ∃ e₁, e.MovesOn e₁ ∧ r = (body e₁).1.mapError .error ∧ e' = (body e₁).2 := by
  unfold call at h
  split_ifs at h with down
  · cases h
    exact Or.inl ⟨.refl e, _, rfl⟩
  · generalize e.surroundings.takeFault c = t at h
    obtain ⟨fault, s⟩ := t
    cases fault with
    | none =>
      cases h
      exact Or.inr ⟨{ e with surroundings := s }, ⟨s, rfl⟩, rfl, rfl⟩
    | fail | lost | crash =>
      cases h
      exact Or.inl ⟨⟨s, rfl⟩, _, rfl⟩

/-- Looking a worker up changes nothing, and finds what is written down. -/
theorem lastBeat_moves {worker : String} {e e' : Engine} {r : Except Failure (Option Beat)}
    (h : e.lastBeat worker = (r, e')) :
    e.MovesOn e' ∧ ∀ o, r = .ok o → o = Table.get? e.liveness worker := by
  rw [lastBeat, offline] at h
  rcases call_moves h with ⟨moved, y, rfl⟩ | ⟨e₁, ⟨s, rfl⟩, rfl, rfl⟩
  · refine ⟨moved, ?_⟩
    rintro o ⟨⟩
  · refine ⟨⟨s, rfl⟩, ?_⟩
    rintro o ⟨⟩
    rfl

theorem reclaimJobs_moves {e e' : Engine} {r : Except Failure Nat}
    (h : e.reclaimJobs = (r, e')) :
    (e'.queue = e.queue ∧ ∃ y, r = .error y) ∨
      (r = .ok (e.queue.reclaim e.now).1 ∧ e'.queue = (e.queue.reclaim e.now).2) := by
  rw [reclaimJobs, offline] at h
  rcases call_moves h with ⟨⟨s, rfl⟩, failed⟩ | ⟨e₁, ⟨s, rfl⟩, rfl, rfl⟩
  · exact Or.inl ⟨rfl, failed⟩
  · exact Or.inr ⟨rfl, rfl⟩

end Engine

namespace Queue

/-- The lease on the job has run out. -/
def Overdue (now : Timestamp) (j : Job) : Prop :=
  j.state = .leased ∧ ∃ t, j.leaseUntil = some t ∧ t ≤ now

theorem isExpired_iff {now : Timestamp} {j : Job} : isExpired now j = true ↔ Overdue now j := by
  simp [isExpired, Overdue, Option.any_eq_true]

/-- The queue `q'` has got back the `n` jobs of `q` whose lease has run out. -/
structure TakenBack (now : Timestamp) (q : Queue) (n : Nat) (q' : Queue) : Prop where
  none_left : ∀ id j, q'.get? id = some j → ¬ Overdue now j
  returned : ∃ ids : List JobId, ids.Nodup ∧ ids.length = n ∧
    (∀ id, id ∈ ids ↔ ∃ j, q.get? id = some j ∧ Overdue now j) ∧
    (∀ id ∈ ids, ∃ j k, q.get? id = some j ∧ q'.get? id = some k ∧ j.state = .leased ∧
      k.state = .queued ∧ k.attemptCount = j.attemptCount ∧ k.availableAt = now) ∧
    ∀ id, id ∉ ids → q'.get? id = q.get? id

theorem takenBack_reclaim (now : Timestamp) (q : Queue) :
    TakenBack now q (q.reclaim now).1 (q.reclaim now).2 := by
  constructor
  case none_left =>
    intro id j stored overdue
    rw [get?_reclaim, Option.map_eq_some_iff] at stored
    obtain ⟨k, -, rfl⟩ := stored
    split_ifs at overdue with expired
    · cases overdue.1
    · exact expired (isExpired_iff.2 overdue)
  case returned =>
    have mem : ∀ id, id ∈ (q.jobs.entries.filter fun e => isExpired now e.2).map Prod.fst ↔
        ∃ j, q.get? id = some j ∧ Overdue now j := by
      intro id
      simp only [get?, Table.get?_eq_some_iff, List.mem_map, List.mem_filter, isExpired_iff,
        Prod.exists, exists_and_right, exists_eq_right]
    refine ⟨_, q.jobs.nodup.sublist (List.filter_sublist.map _), ?_, mem, ?_, ?_⟩
    · rw [List.length_map, reclaim, Table.values, List.filter_map, List.length_map]
      rfl
    · intro id overdue
      obtain ⟨j, stored, overdue⟩ := (mem id).1 overdue
      refine ⟨j, requeue now j, stored, ?_, overdue.1, rfl, rfl, rfl⟩
      rw [get?_reclaim, stored, Option.map_some, if_pos (isExpired_iff.2 overdue)]
    · intro id kept
      rw [get?_reclaim]
      cases stored : q.get? id with
      | none => rfl
      | some j =>
        have running : ¬ isExpired now j = true := fun expired =>
          kept ((mem id).2 ⟨j, stored, isExpired_iff.1 expired⟩)
        rw [Option.map_some, if_neg running]

end Queue

namespace Supervisor

/-- The worker has given a sign of life, and the last one is older than its leases run without
saying that it has stopped. -/
def Silent (beats : Liveness) (now : Timestamp) (worker : String × Span) : Prop :=
  ∃ b, Table.get? beats worker.1 = some b ∧ b.status ≠ Beat.stopped ∧
    worker.2 < now.since b.updatedAt

theorem silent_iff {beats : Liveness} {now : Timestamp} {worker : String × Span} :
    Silent beats now worker ↔
      (Table.get? beats worker.1).any (fun b => b.isStale worker.2 now) = true := by
  simp [Silent, Beat.isStale, Option.any_eq_true]

instance (beats : Liveness) (now : Timestamp) (worker : String × Span) :
    Decidable (Silent beats now worker) :=
  decidable_of_iff _ silent_iff.symm

section

variable {now : Timestamp} {stale names : List String} {worker : String × Span}
  {workers : List (String × Span)} {s s' : Schedule} {x : Failure}

/-- The names of the silent ones, in the order given. -/
def silentOf (beats : Liveness) (now : Timestamp) (workers : List (String × Span)) : List String :=
  (workers.filter fun w => Silent beats now w).map Prod.fst

theorem silentOf_cons (beats : Liveness) (now : Timestamp) (worker : String × Span)
    (workers : List (String × Span)) : silentOf beats now (worker :: workers) =
      (if Silent beats now worker then [worker.1] else []) ++ silentOf beats now workers := by
  unfold silentOf
  rw [List.filter_cons]
  split_ifs with silent silent' silent'
  · rfl
  · exact absurd (of_decide_eq_true silent) silent'
  · exact absurd (decide_eq_true silent') silent
  · rfl

theorem run_findStale_cons {r : Except Failure (Option Beat)} {e : Engine}
    (h : s.engine.lastBeat worker.1 = (r, e)) :
    Schedule.run (findStale now stale (worker :: workers)) s =
      Schedule.run (match r with
        | .error x => fail x
        | .ok none => findStale now stale workers
        | .ok (some b) => findStale now
          (if b.isStale worker.2 now then stale ++ [worker.1] else stale) workers)
        { s with engine := e } := by
  rw [findStale, Schedule.run, Engine.perform, h]
  rcases r with x | _ | b <;> rfl

/-- The search touches no store, and what it finds is what there is. -/
theorem findStale_moves {r : Except Failure (List String)}
    (h : Schedule.run (findStale now stale workers) s = (r, s')) :
    s.engine.MovesOn s'.engine ∧
      ∀ names, r = .ok names → names = stale ++ silentOf s.engine.liveness now workers := by
  induction workers generalizing stale s with
  | nil =>
    cases h
    refine ⟨.refl _, ?_⟩
    rintro names ⟨⟩
    simp [silentOf]
  | cons worker workers ih =>
    obtain ⟨o, e, looked⟩ : ∃ o e, s.engine.lastBeat worker.1 = (o, e) := ⟨_, _, rfl⟩
    rw [run_findStale_cons looked] at h
    obtain ⟨moved, found⟩ := Engine.lastBeat_moves looked
    have beats : e.liveness = s.engine.liveness := by
      obtain ⟨x, rfl⟩ := moved
      rfl
    rcases o with x | _ | b
    · cases h
      refine ⟨moved, ?_⟩
      rintro names ⟨⟩
    · have unknown : ¬ Silent s.engine.liveness now worker := by
        rintro ⟨b, known, -⟩
        cases known.symm.trans (found none rfl).symm
      obtain ⟨onward, rest⟩ := ih h
      refine ⟨moved.trans onward, fun names done => ?_⟩
      rw [rest names done, silentOf_cons, if_neg unknown, List.nil_append, beats]
    · have silent : Silent s.engine.liveness now worker ↔ b.isStale worker.2 now = true := by
        rw [silent_iff, ← found (some b) rfl]
        rfl
      obtain ⟨onward, rest⟩ := ih h
      refine ⟨moved.trans onward, fun names done => ?_⟩
      rw [rest names done, silentOf_cons, beats]
      by_cases is_stale : b.isStale worker.2 now = true
      · rw [if_pos is_stale, if_pos (silent.2 is_stale), List.append_assoc]
      · rw [if_neg is_stale, if_neg fun is_silent => is_stale (silent.1 is_silent)]
        rfl

theorem findStale_append (now : Timestamp) (stale : List String)
    (before after : List (String × Span)) : findStale now stale (before ++ after) =
      andThen (findStale now stale before) fun stale => findStale now stale after := by
  induction before generalizing stale with
  | nil => rfl
  | cons worker before ih =>
    simp only [List.cons_append, findStale, andThen, Plan.bind]
    congr 1
    funext r
    rcases r with x | _ | b
    · rfl
    · exact ih stale
    · exact ih _

/-- A search goes no further than a look that fails. -/
theorem findStale_failed {before after : List (String × Span)}
    (h : Schedule.run (findStale now stale before) s = (.ok names, s'))
    (failed : (s'.engine.lastBeat worker.1).1 = .error x) :
    (Schedule.run (findStale now stale (before ++ worker :: after)) s).1 = .error x := by
  obtain ⟨r, e, looked⟩ : ∃ r e, s'.engine.lastBeat worker.1 = (r, e) := ⟨_, _, rfl⟩
  rw [looked] at failed
  cases failed
  rw [findStale_append, Schedule.run_andThen_ok h, run_findStale_cons looked]
  rfl

/-- In memory no look fails. -/
theorem findStale_inMemory (mem : s.engine.InMemory) :
    ∃ names, Schedule.run (findStale now stale workers) s = (.ok names, s) := by
  induction workers generalizing stale with
  | nil => exact ⟨stale, rfl⟩
  | cons worker workers ih =>
    have looked : s.engine.lastBeat worker.1 =
        (.ok (Table.get? s.engine.liveness worker.1), s.engine) := by
      rw [Engine.lastBeat, mem.call]
      rfl
    rw [run_findStale_cons looked]
    cases Table.get? s.engine.liveness worker.1 with
    | none => exact ih
    | some b => exact ih

/-- A check that finds nobody leaves it at that. -/
theorem run_recover_none (h : Schedule.run (findStale s.engine.now [] workers) s = (.ok [], s')) :
    Schedule.run (recover workers) s = (.ok ([], 0), s') := by
  show Schedule.run (andThen (findStale s.engine.now [] workers) _) s = _
  rw [Schedule.run_andThen_ok h]
  rfl

theorem run_recover_some (found : stale ≠ [])
    (h : Schedule.run (findStale s.engine.now [] workers) s = (.ok stale, s')) :
    Schedule.run (recover workers) s = (s'.engine.reclaimJobs.1.map fun n => (stale, n),
      { s' with engine := s'.engine.reclaimJobs.2 }) := by
  show Schedule.run (andThen (findStale s.engine.now [] workers) _) s = _
  rw [Schedule.run_andThen_ok h, if_neg (by simpa using found), Schedule.run]
  obtain ⟨r, e, done⟩ : ∃ r e, s'.engine.reclaimJobs = (r, e) := ⟨_, _, rfl⟩
  rw [Engine.perform, done]
  cases r <;> rfl

theorem run_recover_failed
    (h : Schedule.run (findStale s.engine.now [] workers) s = (.error x, s')) :
    Schedule.run (recover workers) s = (.error x, s') := by
  show Schedule.run (andThen (findStale s.engine.now [] workers) _) s = _
  exact Schedule.run_andThen_error h

/-- A check that fails, in the search or afterwards, leaves the queue as it was. One that does not
names the silent workers, and without any leaves the queue as it was, too. -/
theorem recover_effect {r : Except Failure (List String × Nat)}
    (checked : Schedule.run (recover workers) s = (r, s')) :
    (∀ x, r = .error x → s'.engine.queue = s.engine.queue) ∧
    ∀ stale n, r = .ok (stale, n) → stale = silentOf s.engine.liveness s.engine.now workers ∧
      (stale = [] → n = 0 ∧ s'.engine.queue = s.engine.queue) ∧
      (stale ≠ [] → s.engine.queue.TakenBack s.engine.now n s'.engine.queue) := by
  obtain ⟨found, s₁, searched⟩ : ∃ found s₁,
      Schedule.run (findStale s.engine.now [] workers) s = (found, s₁) := ⟨_, _, rfl⟩
  obtain ⟨⟨world, moved⟩, names⟩ := findStale_moves searched
  have same : s₁.engine.queue = s.engine.queue := by rw [moved]
  rcases found with x | stale
  · rw [run_recover_failed searched] at checked
    cases checked
    exact ⟨fun _ _ => same, by rintro stale n ⟨⟩⟩
  · have named : stale = silentOf s.engine.liveness s.engine.now workers := names stale rfl
    by_cases none : stale = []
    · subst none
      rw [run_recover_none searched] at checked
      cases checked
      refine ⟨by rintro x ⟨⟩, ?_⟩
      rintro stale n ⟨⟩
      exact ⟨named, fun _ => ⟨rfl, same⟩, fun some => absurd rfl some⟩
    · rw [run_recover_some none searched] at checked
      obtain ⟨o, e, done⟩ : ∃ o e, s₁.engine.reclaimJobs = (o, e) := ⟨_, _, rfl⟩
      rw [done] at checked
      cases checked
      have now : s₁.engine.now = s.engine.now := by rw [moved]; rfl
      rcases Engine.reclaimJobs_moves done with ⟨kept, y, rfl⟩ | ⟨rfl, taken⟩
      · exact ⟨fun _ _ => kept.trans same, by rintro stale n ⟨⟩⟩
      · refine ⟨by rintro x ⟨⟩, ?_⟩
        rintro stale n ⟨⟩
        refine ⟨named, fun empty => absurd empty none, fun _ => ?_⟩
        rw [same, now] at taken ⊢
        exact taken ▸ Queue.takenBack_reclaim s.engine.now s.engine.queue

theorem recover_inMemory (mem : s.engine.InMemory) :
    ∃ stale n, (Schedule.run (recover workers) s).1 = .ok (stale, n) := by
  obtain ⟨names, searched⟩ := @findStale_inMemory s.engine.now [] workers s mem
  by_cases none : names = []
  · subst none
    exact ⟨_, _, by rw [run_recover_none searched]⟩
  · rw [run_recover_some none searched, Engine.reclaimJobs, mem.call]
    exact ⟨_, _, rfl⟩

end

/-- What a check reports and does, for any workers, each with the time that its leases run, any
signs of life, any jobs and any time on the clock. It names exactly the silent workers, in the order
given. If there are any, every lease that has run out is taken back, as many as it reports, and all
other jobs stay as they are; if there are none, or if the check fails, the queue stays as it is. A
look that fails makes the check fail, and in memory none does. -/
theorem recover_exact {workers : List (String × Span)} {s s' : Schedule}
    {r : Except Failure (List String × Nat)}
    (checked : Schedule.run (recover workers) s = (r, s')) :
    (∀ x, r = .error x → s'.engine.queue = s.engine.queue) ∧
    (∀ stale n, r = .ok (stale, n) → stale = silentOf s.engine.liveness s.engine.now workers ∧
      (stale = [] → n = 0 ∧ s'.engine.queue = s.engine.queue) ∧
      (stale ≠ [] → s.engine.queue.TakenBack s.engine.now n s'.engine.queue)) ∧
    (∀ before worker after names s₁ x, workers = before ++ worker :: after →
      Schedule.run (findStale s.engine.now [] before) s = (.ok names, s₁) →
      (s₁.engine.lastBeat worker.1).1 = .error x → r = .error x) ∧
    (s.engine.InMemory → ∃ stale n, r = .ok (stale, n)) ∧
    ∀ visibility, workers = (s.engine.slots.map fun slot => (slot.worker, visibility)) →
      Schedule.run (checkBeats visibility) s = (r, s') := by
  obtain ⟨failed, done⟩ := recover_effect checked
  refine ⟨failed, done, ?failing, ?inMemory, ?registered⟩
  case failing =>
    rintro before worker after names s₁ x rfl searched failing
    obtain ⟨o, s₂, whole⟩ : ∃ o s₂, Schedule.run (findStale s.engine.now []
        (before ++ worker :: after)) s = (o, s₂) := ⟨_, _, rfl⟩
    have fails : (Schedule.run (findStale s.engine.now [] (before ++ worker :: after)) s).1 =
        .error x := findStale_failed searched failing
    rw [whole] at fails
    cases fails
    rw [run_recover_failed whole] at checked
    cases checked
    rfl
  case inMemory =>
    intro mem
    have found := @recover_inMemory workers s mem
    rw [checked] at found
    exact found
  case registered =>
    rintro visibility rfl
    rw [← checked, checkBeats, Schedule.run]
    show Schedule.run (recover _) s = _
    rw [List.map_map]
    rfl

/-- A worker has fallen silent with two leases, one of which has run out; another is alive, a third
has stopped and a fourth was never heard of. -/
def fallenSilent : Schedule where
  engine :=
    { Engine.create Config.usual (.clamp 90000000000) .quiet with
      queue := Queue.empty.afterAll
        [(.epoch, .enqueue (Queue.sampleJob 1 "i-1")),
          (.epoch, .lease "w-1" 1 (.ofSeconds 60)),
          (.epoch, .enqueue (Queue.sampleJob 2 "i-2")),
          (.epoch, .lease "w-1" 1 (.ofSeconds 120))]
      liveness := Table.empty
        |> Liveness.beat "w-1" "executing" .epoch
        |> Liveness.beat "w-2" "executing" (.clamp 80000000000)
        |> Liveness.beat "w-3" "stopped" .epoch }
  tasks := []

def watched : List (String × Span) :=
  [("w-1", .ofSeconds 60), ("w-2", .ofSeconds 60), ("w-3", .ofSeconds 60), ("w-4", .ofSeconds 60)]

theorem recover_exact_fallenSilent : fallenSilent.engine.InMemory ∧
    (∃ n, (Schedule.run (recover watched) fallenSilent).1 = .ok (["w-1"], n) ∧
      fallenSilent.engine.queue.TakenBack (.clamp 90000000000) n
        (Schedule.run (recover watched) fallenSilent).2.engine.queue) ∧
    ∃ x, (Schedule.run (recover watched)
        { fallenSilent with engine := { fallenSilent.engine with unreachable := [.beats] } }).1 =
      .error x := by
  have mem : fallenSilent.engine.InMemory := by decide +kernel
  have silent : silentOf fallenSilent.engine.liveness fallenSilent.engine.now watched =
      ["w-1"] := by decide +kernel
  obtain ⟨-, done, -, inMemory, -⟩ := @recover_exact watched fallenSilent _ _ rfl
  obtain ⟨stale, n, answered⟩ := inMemory mem
  obtain ⟨named, -, taken⟩ := done stale n answered
  obtain ⟨-, -, failing, -, -⟩ := @recover_exact watched
    { fallenSilent with engine := { fallenSilent.engine with unreachable := [.beats] } } _ _ rfl
  rw [silent] at named
  subst named
  exact ⟨mem, ⟨n, answered, taken (by decide)⟩, _, failing [] _ _ _ _ _ rfl rfl rfl⟩

end Supervisor

end Courier
