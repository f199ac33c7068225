import Courier.Proofs.Queue.Fate

/-! The tenure of a worker on a job: from the lease that returned the job to the release by its
holder or to the reclaim that found its lease run out. Nobody else can lease the job meanwhile, nor
renew, complete, release or bury it. -/

namespace Courier.Queue

namespace Entry

/-- A lease that returned the job to the worker. -/
def Leases (e : Entry) (worker : String) (id : JobId) : Prop :=
  ∃ batch visibility js, e.call = .lease worker batch visibility ∧ e.answer = .ok (.jobs js) ∧
    ∃ j ∈ js, j.id = id

/-- The expiry that a lease or a renewal by the worker set for the job. -/
def expirySet? (worker : String) (id : JobId) (e : Entry) : Option Timestamp :=
  match e.call, e.answer with
  | .lease w _ _, .ok (.jobs js) =>
    if w = worker then (js.find? fun j => j.id = id).bind Job.leaseUntil else none
  | .heartbeat i w _, .ok (.expiry t) => if i = id ∧ w = worker then some t else none
  | _, _ => none

/-- A release by the worker, or a reclaim not before `expiry` that put the job back. -/
def EndsTenure (e : Entry) (worker : String) (id : JobId) (expiry : Option Timestamp) : Prop :=
  (∃ availableAt reason refund, e.call = .release id worker availableAt reason refund ∧
    e.answer = .ok .nothing) ∨
  (e.call = .reclaim ∧ (∃ t, expiry = some t ∧ t ≤ e.now) ∧
    ∃ j, e.after.get? id = some j ∧ j.state = .queued)

/-- Refused for want of the lease, and without a trace. -/
def Refused (e : Entry) : Prop :=
  (∃ x, e.answer = .error x ∧ x.kind = .leaseMismatch) ∧ e.after = e.before

end Entry

/-- The expiry set last for the worker's lease on the job. -/
def lastExpiry (worker : String) (id : JobId) (h : List Entry) : Option Timestamp :=
  (h.filterMap (Entry.expirySet? worker id)).getLast?

/-- All that others tried with the lease on the job was refused. -/
def Undisturbed (worker : String) (id : JobId) (h : List Entry) : Prop :=
  ∀ e ∈ h, ∀ other, e.call.claim? = some (id, other) → other ≠ worker → e.Refused

theorem lastExpiry_snoc (worker : String) (id : JobId) (h : List Entry) (e : Entry) :
    lastExpiry worker id (h ++ [e]) = (e.expirySet? worker id).or (lastExpiry worker id h) := by
  unfold lastExpiry
  rw [List.filterMap_append, List.getLast?_append]
  cases he : e.expirySet? worker id <;> simp [he]

theorem Undisturbed.snoc {worker : String} {id : JobId} {h : List Entry}
    (hu : Undisturbed worker id h) {e : Entry}
    (he : ∀ other, e.call.claim? = some (id, other) → other ≠ worker → e.Refused) :
    Undisturbed worker id (h ++ [e]) := by
  intro x hx
  rcases List.mem_append.1 hx with hx | hx
  · exact hu x hx
  · rw [List.mem_singleton.1 hx]
    exact he

theorem Undisturbed.append {worker : String} {id : JobId} {h h' : List Entry}
    (hu : Undisturbed worker id h) (hu' : Undisturbed worker id h') :
    Undisturbed worker id (h ++ h') := by
  intro x hx
  rcases List.mem_append.1 hx with hx | hx
  · exact hu x hx
  · exact hu' x hx

section

variable {q : Queue} {id : JobId} {other : String} {j : Job} {now : Timestamp} {c : Call}

theorem held_refused (hj : q.get? id = some j) (hl : j.isLeasedBy other = false) :
    q.held id other = .error (.notLeasedBy id j.state j.leasedBy other) := by
  simp [held, hj, hl]

/-- A claim on a lease that the worker does not have fails. -/
theorem Call.run_refused (now : Timestamp) (hj : q.get? id = some j)
    (hl : j.isLeasedBy other = false) (hc : c.claim? = some (id, other)) :
    c.run now q = .error (.notLeasedBy id j.state j.leasedBy other) := by
  obtain ⟨f, same⟩ := c.run_claim now q hc
  rw [same, held_refused hj hl]
  rfl

theorem refused_of_not_leased (hj : q.get? id = some j) (hl : j.isLeasedBy other = false)
    (hc : c.claim? = some (id, other)) : (⟨now, c, q⟩ : Entry).Refused := by
  have hrun := Call.run_refused now hj hl hc
  refine ⟨⟨.notLeasedBy id j.state j.leasedBy other, ?_, rfl⟩, ?_⟩
  · simp only [Entry.answer, Call.answer, hrun]
    rfl
  · simp only [Entry.after, Call.after, hrun]

theorem refused_of_holds {worker : String} (hh : q.Holds id worker j) (other : String)
    (hc : c.claim? = some (id, other)) (hne : other ≠ worker) :
    (⟨now, c, q⟩ : Entry).Refused :=
  refused_of_not_leased hh.1 (by simp [Job.isLeasedBy, hh.2.2, Ne.symm hne]) hc

theorem refused_of_queued (hj : q.get? id = some j) (hs : j.state = .queued) (other : String)
    (hc : c.claim? = some (id, other)) : (⟨now, c, q⟩ : Entry).Refused :=
  refused_of_not_leased hj (by simp [Job.isLeasedBy, hs]) hc

/-- A job that waits goes on waiting unless it is leased. -/
theorem queued_after (hq : q.Keyed) (hj : q.get? id = some j) (hs : j.state = .queued)
    (hnew : c.newId? ≠ some id) (hl : ∀ w, ¬ (⟨now, c, q⟩ : Entry).Leases w id) :
    ∃ k, (c.after now q).get? id = some k ∧ k.state = .queued := by
  have not_leased : j.state ≠ .leased := by
    rw [hs]
    nofun
  rcases c.after_cases now q with ⟨_, -, hafter⟩ | ⟨a, hans, change⟩
  · exact ⟨j, by rw [hafter, hj], hs⟩
  · have hfate := change.fate hq hj hnew
    generalize ho : (c.after now q).get? id = o at hfate
    cases hfate with
    | untouched => exact ⟨j, rfl, hs⟩
    | @leased w batch visibility js _ hmem =>
      exact absurd ⟨batch, visibility, js, rfl, hans, _, hmem, hq id j hj⟩ (hl w)
    | renewed h | completed h | released h | buried h => exact absurd h not_leased
    | requeued h => exact absurd (isExpired_leased h) not_leased
    | pruned h => simp [isPrunable, hs] at h
    | replayed h | resolved h =>
      rw [hs] at h
      cases h

end

/-- Where the tenure of `worker` on a job stands after the calls `h`, of which the first was the
lease: under way, ended as it may be, or over for good with the job. -/
inductive Tenure (q : Queue) (worker : String) (id : JobId) (x : Entry) (h : List Entry) :
    Prop where
  | underWay (j : Job) (holds : q.Holds id worker j)
      (expiry : j.leaseUntil = lastExpiry worker id (x :: h))
      (undisturbed : Undisturbed worker id h)
  | ended (during : List Entry) (z : Entry) (later : List Entry) (split : h = during ++ z :: later)
      (ends : z.EndsTenure worker id (lastExpiry worker id (x :: during)))
      (holds : ∃ j, z.before.Holds id worker j) (undisturbed : Undisturbed worker id during)
      (waits : (∀ e ∈ later, ∀ w, ¬ e.Leases w id) →
        (∃ j, q.get? id = some j ∧ j.state = .queued) ∧ Undisturbed worker id (z :: later))
  | jobOver (inactive : ∀ j, q.get? id = some j → j.isActive = false)

theorem expirySet?_error {worker : String} {id : JobId} {now : Timestamp} {c : Call} {q : Queue}
    {x : Error} (h : c.answer now q = .error x) :
    (⟨now, c, q⟩ : Entry).expirySet? worker id = none := by
  unfold Entry.expirySet? Entry.answer
  rw [h]
  cases c <;> rfl

theorem expirySet?_untouched {worker : String} {id : JobId} {now : Timestamp} {c : Call}
    {q : Queue} {a : Answer} (h : c.answer now q = .ok a)
    (hjobs : ∀ js, a = .jobs js → ∀ k ∈ js, k.id ≠ id)
    (hclaim : ∀ other, c.claim? ≠ some (id, other)) :
    (⟨now, c, q⟩ : Entry).expirySet? worker id = none := by
  unfold Entry.expirySet? Entry.answer
  rw [h]
  cases c with
  | lease w batch visibility =>
    cases a with
    | jobs js =>
      have hnone : js.find? (fun j => j.id = id) = none := by
        rw [List.find?_eq_none]
        intro k hk
        simpa using hjobs js rfl k hk
      simp [hnone]
    | _ => rfl
  | heartbeat i w visibility =>
    cases a with
    | expiry t =>
      have hne : i ≠ id := fun he => hclaim w (by rw [← he]; rfl)
      simp [hne]
    | _ => rfl
  | _ => rfl

/-- One more call: a tenure under way goes on, ends as it may, or is over with the job. -/
theorem Tenure.step {q : Queue} {worker : String} {id : JobId} {x : Entry} {h : List Entry}
    (t : Tenure q worker id x h) (hq : q.Keyed) (now : Timestamp) {c : Call}
    (hnew : c.newId? ≠ some id) : Tenure (c.after now q) worker id x (h ++ [⟨now, c, q⟩]) := by
  cases t with
  | ended during z later split ends holds undisturbed waits =>
    refine .ended during z (later ++ [⟨now, c, q⟩]) (by simp [split]) ends holds undisturbed
      fun unleased => ?_
    obtain ⟨⟨j, hj, hs⟩, hund⟩ := waits fun e he => unleased e (List.mem_append_left _ he)
    exact ⟨queued_after hq hj hs hnew (unleased _ (by simp)),
      hund.snoc (e := ⟨now, c, q⟩) fun other hc _ => refused_of_queued hj hs other hc⟩
  | jobOver inactive =>
    refine .jobOver fun j hj => ?_
    rcases c.after_cases now q with ⟨_, -, hafter⟩ | ⟨a, -, change⟩
    · exact inactive j (hafter ▸ hj)
    · rcases change.stored hq hj with ⟨k, hk⟩ | ⟨hid, -⟩
      · exact (change.fate hq hk hnew).inactive (inactive k hk) j hj
      · exact absurd hid hnew
  | underWay j holds expiry undisturbed =>
    have hund := undisturbed.snoc (e := ⟨now, c, q⟩) (refused_of_holds holds)
    rcases c.after_cases now q with ⟨_, hans, hafter⟩ | ⟨a, hans, change⟩
    · refine .underWay j (by rw [hafter]; exact holds) ?_ hund
      rw [← List.cons_append, lastExpiry_snoc, expirySet?_error hans]
      exact expiry
    · have hfate := change.fate hq holds.1 hnew
      generalize ho : (c.after now q).get? id = o at hfate
      cases hfate with
      | untouched hjobs hclaim =>
        refine .underWay j ⟨ho, holds.2⟩ ?_ hund
        rw [← List.cons_append, lastExpiry_snoc, expirySet?_untouched hans hjobs hclaim]
        exact expiry
      | leased he =>
        have := isEligible_queued he
        rw [holds.2.1] at this
        cases this
      | @renewed other visibility _ hby =>
        rw [holds.2.2] at hby
        obtain rfl := Option.some.inj hby
        refine .underWay _ ⟨ho, holds.2⟩ ?_ hund
        rw [← List.cons_append, lastExpiry_snoc]
        simp [Entry.expirySet?, Entry.answer, hans, renewed]
      | completed | buried =>
        refine .jobOver fun k hk => ?_
        rw [ho] at hk
        rw [← Option.some.inj hk]
        rfl
      | released _ hby =>
        rw [holds.2.2] at hby
        obtain rfl := Option.some.inj hby
        refine .ended h ⟨now, _, q⟩ [] rfl (Or.inl ⟨_, _, _, rfl, hans⟩) ⟨j, holds⟩ undisturbed
          fun _ => ⟨⟨_, ho, rfl⟩, fun e he => hund e (List.mem_append_right _ he)⟩
      | requeued he =>
        simp only [isExpired, Bool.and_eq_true, Option.any_eq_true, decide_eq_true_eq] at he
        obtain ⟨-, t, ht, hle⟩ := he
        exact .ended h ⟨now, _, q⟩ [] rfl
          (Or.inr ⟨rfl, ⟨t, by rw [← expiry]; exact ht, hle⟩, _, ho, rfl⟩) ⟨j, holds⟩ undisturbed
          fun _ => ⟨⟨_, ho, rfl⟩, fun e he => hund e (List.mem_append_right _ he)⟩
      | pruned hp =>
        simp [isPrunable, holds.2.1] at hp
      | replayed hs | resolved hs =>
        rw [holds.2.1] at hs
        cases hs

/-- What a lease returns was waiting when the call was made. -/
theorem Entry.Leases.waiting {x : Entry} {worker : String} {id : JobId} (hx : x.Leases worker id)
    (hq : x.before.Keyed) : ∃ k, x.before.get? id = some k ∧ k.state = .queued := by
  obtain ⟨now, call, before⟩ := x
  obtain ⟨batch, visibility, js, rfl, hans, j, hj, rfl⟩ := hx
  cases hans
  obtain ⟨k, hk, he, -⟩ := mem_lease hq hj
  exact ⟨k, hk, isEligible_queued he⟩

/-- The worker that a lease returns a job to holds it, until the expiry that the lease set. -/
theorem Entry.Leases.holds {x : Entry} {worker : String} {id : JobId} (hx : x.Leases worker id)
    (hq : x.before.Keyed) :
    ∃ j, x.after.Holds id worker j ∧ j.leaseUntil = x.expirySet? worker id := by
  obtain ⟨now, call, before⟩ := x
  obtain ⟨batch, visibility, js, rfl, hans, j, hj, hid⟩ := hx
  have hjs : (before.lease worker batch visibility now).1 = js := by cases hans; rfl
  have hexp : (⟨now, .lease worker batch visibility, before⟩ : Entry).expirySet? worker id =
      some (now.add visibility) := by
    cases hf : js.find? (fun j => j.id = id) with
    | none =>
      rw [List.find?_eq_none] at hf
      exact absurd (by simpa using hid) (hf j hj)
    | some i =>
      have hi := List.mem_of_find?_eq_some hf
      rw [← hjs] at hi
      obtain ⟨k, -, -, rfl⟩ := mem_lease hq hi
      simp only [Entry.expirySet?, hans, hf]
      rfl
  rw [hexp]
  rcases get?_lease hq worker batch visibility now id with ⟨k, -, -, -, hget⟩ | ⟨hne, -⟩
  · exact ⟨_, ⟨hget, rfl, rfl⟩, rfl⟩
  · rw [hjs] at hne
    exact absurd hid (hne j hj)

theorem Run.tenure {h : List Entry} {q : Queue} (run : Run h q) {pre rest : List Entry} {x : Entry}
    (hh : h = pre ++ x :: rest) {worker : String} {id : JobId} (hx : x.Leases worker id) :
    Tenure q worker id x rest := by
  induction run generalizing rest with
  | nil => simp at hh
  | @snoc h q run now c fresh ih =>
    rcases List.eq_nil_or_concat rest with rfl | ⟨rest, e, rfl⟩
    · obtain ⟨-, he⟩ := List.append_inj' hh rfl
      cases he
      obtain ⟨j, holds, hexp⟩ := hx.holds run.keyed
      refine .underWay j holds ?_ (by simp [Undisturbed])
      rw [hexp, show [(⟨now, c, q⟩ : Entry)] = [] ++ [⟨now, c, q⟩] from rfl, lastExpiry_snoc]
      cases Entry.expirySet? worker id ⟨now, c, q⟩ <;> rfl
    · rw [List.concat_eq_append, ← List.cons_append, ← List.append_assoc] at hh
      obtain ⟨rfl, he⟩ := List.append_inj' hh rfl
      cases he
      rw [List.concat_eq_append]
      refine (ih rfl).step run.keyed now fun hid => ?_
      -- the job was leased, so its id was accepted before and is not fresh
      obtain ⟨k, hk, -⟩ := hx.waiting run.before.1.keyed
      refine fresh id hid ?_
      unfold accepted
      rw [List.filterMap_append]
      exact List.mem_append_left _ (run.before.1.stored_accepted hk)

/-- Between two leases of one job its first holder released it, or a reclaim not before the expiry
that this holder's lease or renewals set last put it back. Until then, and from then on until the
job is leased again, whatever others tried with the lease was refused. -/
theorem lease_exclusive {h : List Entry} {q : Queue} (run : Run h q) {pre mid post : List Entry}
    {x y : Entry} (hh : h = pre ++ x :: (mid ++ y :: post)) {worker other : String} {id : JobId}
    (hx : x.Leases worker id) (hy : y.Leases other id) :
    ∃ during z later, mid = during ++ z :: later ∧
      z.EndsTenure worker id (lastExpiry worker id (x :: during)) ∧
      (∃ j, z.before.Holds id worker j) ∧ Undisturbed worker id during ∧
      ((∀ e ∈ mid, ∀ w, ¬ e.Leases w id) → Undisturbed worker id mid) := by
  subst hh
  rw [← List.cons_append, ← List.append_assoc] at run
  have hrun := run.before.1
  obtain ⟨k, hk, hs⟩ := hy.waiting hrun.keyed
  cases hrun.tenure rfl hx with
  | underWay j holds =>
    rw [holds.1] at hk
    rw [← Option.some.inj hk, holds.2.1] at hs
    cases hs
  | ended during z later split ends holds undisturbed waits =>
    refine ⟨during, z, later, split, ends, holds, undisturbed, fun unleased => ?_⟩
    subst split
    exact undisturbed.append (waits fun e he =>
      unleased e (List.mem_append_right _ (List.mem_cons_of_mem _ he))).2
  | jobOver inactive =>
    have := inactive k hk
    rw [(isActive_iff k).2 (Or.inl hs)] at this
    cases this

/-- A worker that renews its lease once, is imitated, and then falls silent until another worker
gets the job. -/
def silentHolder : List (Timestamp × Call) :=
  [(.epoch, .enqueue (sampleJob 1 "i-1")),
    (.epoch, .lease "w-1" 8 (.ofSeconds 60)),
    (.epoch, .heartbeat ⟨.ofNat 1⟩ "w-2" (.ofSeconds 60)),
    (.epoch, .heartbeat ⟨.ofNat 1⟩ "w-1" (.ofSeconds 90)),
    (.clamp 90000000000, .reclaim),
    (.clamp 90000000000, .lease "w-2" 8 (.ofSeconds 60))]

theorem lease_exclusive_silentHolder : ∃ h q pre mid x y,
    Run h q ∧ h = pre ++ x :: (mid ++ y :: []) ∧ x.Leases "w-1" ⟨.ofNat 1⟩ ∧
      y.Leases "w-2" ⟨.ofNat 1⟩ ∧ ∃ during z later, mid = during ++ z :: later ∧
        z.EndsTenure "w-1" ⟨.ofNat 1⟩ (lastExpiry "w-1" ⟨.ofNat 1⟩ (x :: during)) ∧
        (∃ j, z.before.Holds ⟨.ofNat 1⟩ "w-1" j) ∧ Undisturbed "w-1" ⟨.ofNat 1⟩ during ∧
        ((∀ e ∈ mid, ∀ w, ¬ e.Leases w ⟨.ofNat 1⟩) → Undisturbed "w-1" ⟨.ofNat 1⟩ mid) := by
  have run := @run_entries silentHolder (by decide +kernel)
  have split : ∃ pre mid x y, entries empty silentHolder = pre ++ x :: (mid ++ y :: []) ∧
      x.Leases "w-1" ⟨.ofNat 1⟩ ∧ y.Leases "w-2" ⟨.ofNat 1⟩ := by
    refine ⟨[_], [_, _, _], _, _, rfl, ⟨_, _, _, rfl, rfl, ?_⟩, ⟨_, _, _, rfl, rfl, ?_⟩⟩
    · decide +kernel
    · decide +kernel
  obtain ⟨pre, mid, x, y, hh, hx, hy⟩ := split
  exact ⟨_, _, pre, mid, x, y, run, hh, hx, hy, lease_exclusive run hh hx hy⟩

end Courier.Queue
