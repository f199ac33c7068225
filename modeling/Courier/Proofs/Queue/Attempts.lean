import Courier.Proofs.Queue.Conservation
import Courier.Proofs.Queue.Identity
import Courier.Proofs.Queue.Selection
import Courier.Proofs.Queue.Tenure

/-! The account of a job's attempts. A lease adds one, a release that gives the attempt back takes
one off, and nothing else touches the count. Only the holder can give an attempt back, and the one
that came with its lease is then still on the account, so what a job brought with it is never
touched and the count never has to stop at zero. -/

namespace Courier.Queue

/-- The jobs that an answer hands out. -/
def Answer.lent : Answer → List JobId
  | .jobs js => js.map Job.id
  | _ => []

/-- The job whose attempt a release is to give back. -/
def Call.refund? : Call → Option JobId
  | release id _ _ _ true => some id
  | _ => none

namespace Entry

def lent (e : Entry) : List JobId :=
  match e.answer with
  | .ok a => a.lent
  | .error _ => []

def refunded? (e : Entry) : Option JobId :=
  match e.answer with
  | .ok _ => e.call.refund?
  | .error _ => none

end Entry

/-- How often leases have returned the job. -/
def loans (id : JobId) (h : List Entry) : Nat := (h.flatMap Entry.lent).count id

/-- How often an attempt of the job was given back. -/
def refunds (id : JobId) (h : List Entry) : Nat := (h.filterMap Entry.refunded?).count id

theorem loans_snoc (id : JobId) (h : List Entry) (e : Entry) :
    loans id (h ++ [e]) = loans id h + e.lent.count id := by
  simp [loans, List.flatMap_append, List.count_append]

theorem refunds_snoc (id : JobId) (h : List Entry) (e : Entry) :
    refunds id (h ++ [e]) = refunds id h + if e.refunded? = some id then 1 else 0 := by
  rw [refunds, List.filterMap_append, List.count_append]
  cases hr : e.refunded? with
  | none => simp [refunds, hr]
  | some id' => simp [refunds, hr, List.count_singleton]

/-- What a call does to the account of a job that it finds as `j` and leaves as `k`. -/
inductive Charge (e : Entry) (id : JobId) (j k : Job) : Prop where
  | lent : e.lent.count id = 1 → e.refunded? ≠ some id → k.state = .leased →
      k.attemptCount = successor32 j.attemptCount → Charge e id j k
  | refunded : e.lent.count id = 0 → e.refunded? = some id → j.state = .leased →
      k.state = .queued → k.attemptCount = j.attemptCount - 1 → Charge e id j k
  | none : e.lent.count id = 0 → e.refunded? ≠ some id → (k.state = .leased → j.state = .leased) →
      k.attemptCount = j.attemptCount → Charge e id j k

section Charge

variable {now : Timestamp} {c : Call} {q : Queue} {id : JobId} {a : Answer} {j k : Job}

theorem Fate.charge {o : Option Job} (h : Fate now id j c a o) (hq : q.Keyed)
    (hj : q.get? id = some j) (answer : c.answer now q = .ok a) (hk : o = some k) :
    Charge ⟨now, c, q⟩ id j k := by
  have lent : Entry.lent ⟨now, c, q⟩ = a.lent := by simp only [Entry.lent, Entry.answer, answer]
  have refunded : Entry.refunded? ⟨now, c, q⟩ = c.refund? := by
    simp only [Entry.refunded?, Entry.answer, answer]
  have kept (none : c.refund? = none) : Entry.refunded? ⟨now, c, q⟩ ≠ some id := by
    rw [refunded, none]
    exact (Option.some_ne_none id).symm
  cases h with
  | untouched spared claims =>
    cases hk
    refine .none ?_ ?_ (fun leased => leased) rfl
    · rw [lent, List.count_eq_zero]
      cases a with
      | jobs js => simpa [Answer.lent] using spared js rfl
      | _ => simp [Answer.lent]
    · rw [refunded]
      intro same
      cases c with
      | release id' worker availableAt reason refund =>
        cases refund with
        | true =>
          cases same
          exact claims worker rfl
        | false => cases same
      | _ => cases same
  | @leased worker batch visibility js _ mem =>
    cases hk
    have returned : js = (q.lease worker batch visibility now).1 := by
      cases answer
      rfl
    have nodup : (js.map Job.id).Nodup := returned ▸ lease_nodup hq worker batch visibility now
    have own : (leaseTo worker (now.add visibility) now j).id = id := hq id j hj
    refine .lent ?_ (kept rfl) rfl rfl
    rw [lent]
    exact List.count_eq_one_of_mem nodup (own ▸ List.mem_map_of_mem mem)
  | @released worker availableAt reason refund leased =>
    cases hk
    cases refund with
    | true => exact .refunded (by rw [lent]; rfl) refunded leased rfl rfl
    | false => exact .none (by rw [lent]; rfl) (kept rfl) (by rintro ⟨⟩) rfl
  | renewed leased =>
    cases hk
    exact .none (by rw [lent]; rfl) (kept rfl) (fun _ => leased) rfl
  | completed | buried | requeued =>
    cases hk
    exact .none (by rw [lent]; rfl) (kept rfl) (by rintro ⟨⟩) rfl
  | replayed | resolved =>
    cases hk
    exact .none (by rw [lent]; rfl) (kept rfl) (fun leased => leased) rfl
  | pruned => cases hk

/-- Every call that finds a job and leaves it stored charges its account in one of these ways. -/
theorem charge (hq : q.Keyed) (hj : q.get? id = some j) (hk : (c.after now q).get? id = some k)
    (old : c.newId? ≠ some id) : Charge ⟨now, c, q⟩ id j k := by
  rcases c.after_cases now q with ⟨x, answer, same⟩ | ⟨a, answer, change⟩
  · rw [same, hj] at hk
    cases hk
    refine .none ?_ ?_ (fun leased => leased) rfl
    · simp [Entry.lent, Entry.answer, answer]
    · simp [Entry.refunded?, Entry.answer, answer]
  · exact (change.fate hq hj old).charge hq hj answer hk

end Charge

/-- What hands a job out is a lease. -/
theorem Entry.mem_lent_iff {e : Entry} {id : JobId} :
    id ∈ e.lent ↔ ∃ worker, e.Leases worker id := by
  obtain ⟨now, c, q⟩ := e
  constructor
  · intro mem
    rcases c.after_cases now q with ⟨x, answer, -⟩ | ⟨a, answer, change⟩
    · simp [lent, Entry.answer, answer] at mem
    · simp only [lent, Entry.answer, answer] at mem
      generalize c.after now q = q' at change
      cases change with
      | @leased worker batch visibility =>
        obtain ⟨j, hj, own⟩ := List.mem_map.1 mem
        exact ⟨worker, batch, visibility, _, rfl, answer, j, hj, own⟩
      | _ => cases mem
  · rintro ⟨worker, batch, visibility, js, -, answer, j, hj, own⟩
    simp only [lent, answer]
    exact List.mem_map.2 ⟨j, hj, own⟩

/-- Who gives an attempt back holds the job. -/
theorem Entry.refunded_by {e : Entry} {id : JobId} (refunded : e.refunded? = some id) :
    ∃ worker availableAt reason j, e.call = .release id worker availableAt reason true ∧
      e.before.Holds id worker j := by
  obtain ⟨now, c, q⟩ := e
  rcases c.after_cases now q with ⟨x, answer, -⟩ | ⟨a, answer, change⟩
  · simp [refunded?, Entry.answer, answer] at refunded
  · simp only [refunded?, Entry.answer, answer] at refunded
    cases c with
    | release id' worker availableAt reason refund =>
      cases refund with
      | true =>
        cases refunded
        obtain ⟨j, holds⟩ := change.holder rfl
        exact ⟨worker, availableAt, reason, j, rfl, holds⟩
      | false => cases refunded
    | _ => cases refunded

/-- A new job waits. -/
theorem Entry.Creates.queued {e : Entry} {c : Job} (h : e.Creates c) (hq : e.before.Keyed) :
    c.state = .queued := by
  rcases e.call.after_cases e.now e.before with ⟨_, -, same⟩ | ⟨a, -, change⟩
  · have := h.2
    rw [Entry.after, same, h.1] at this
    cases this
  · rcases change.creates hq h.1 h.2 with ⟨j, call, rfl⟩ | ⟨parent, p, -, -, -, -, same, -⟩
    · rw [call] at change
      generalize Call.after e.now e.before (.enqueue j) = q' at change
      cases change with
      | merged _ queued | takenIn _ queued => exact queued
    · rw [same]
      rfl

/-- Nothing is charged before the job is there. -/
theorem Run.uncharged {h : List Entry} {q : Queue} (run : Run h q) {id : JobId}
    (new : id ∉ accepted h) : loans id h = 0 ∧ refunds id h = 0 := by
  have absent : ∀ e ∈ h, ∀ j, e.before.get? id ≠ some j := by
    intro e he j stored
    obtain ⟨pre, post, rfl⟩ := List.append_of_mem he
    refine new ?_
    rw [accepted, List.filterMap_append]
    exact List.mem_append_left _ (run.before.1.stored_accepted stored)
  rw [loans, refunds, List.count_eq_zero, List.count_eq_zero, List.mem_flatMap, List.mem_filterMap]
  constructor
  · rintro ⟨e, he, mem⟩
    obtain ⟨pre, post, rfl⟩ := List.append_of_mem he
    obtain ⟨worker, leases⟩ := Entry.mem_lent_iff.1 mem
    obtain ⟨j, stored, -⟩ := leases.waiting run.before.1.keyed
    exact absent e he j stored
  · rintro ⟨e, he, refunded⟩
    obtain ⟨-, -, -, j, -, stored, -⟩ := Entry.refunded_by refunded
    exact absent e he j stored

/-- The account, after the calls `h`, of a job that came with `a` attempts and is stored as `j`. -/
structure Balanced (a : Nat) (h : List Entry) (id : JobId) (j : Job) : Prop where
  balance : j.attemptCount + refunds id h = a + loans id h
  floor : a ≤ j.attemptCount
  /-- The attempt of a lease that is under way. -/
  owed : j.state = .leased → a < j.attemptCount

/-- An account within the range has room for one more lease. -/
theorem Balanced.next {a : Nat} {h : List Entry} {id : JobId} {j : Job} {e : Entry}
    (balanced : Balanced a h id j) (lent : e.lent.count id = 1) (kept : e.refunded? ≠ some id)
    (small : a + loans id (h ++ [e]) < 2 ^ 32 + refunds id (h ++ [e])) :
    successor32 j.attemptCount = j.attemptCount + 1 := by
  have balance := balanced.balance
  rw [loans_snoc, refunds_snoc, lent, if_neg kept] at small
  exact Nat.mod_eq_of_lt (by rw [Nat.pow_eq]; omega)

theorem Balanced.snoc {a : Nat} {h : List Entry} {id : JobId} {j k : Job} {e : Entry}
    (balanced : Balanced a h id j) (charge : Charge e id j k)
    (small : a + loans id (h ++ [e]) < 2 ^ 32 + refunds id (h ++ [e])) :
    Balanced a (h ++ [e]) id k := by
  have balance := balanced.balance
  have floor := balanced.floor
  cases charge with
  | lent lent kept leased count =>
    rw [balanced.next lent kept small] at count
    refine ⟨?_, by omega, fun _ => by omega⟩
    rw [loans_snoc, refunds_snoc, lent, if_neg kept]
    omega
  | refunded lent refunded leased queued count =>
    have owed := balanced.owed leased
    refine ⟨?_, by omega, fun leased' => nomatch queued.symm.trans leased'⟩
    rw [loans_snoc, refunds_snoc, lent, if_pos refunded]
    omega
  | none lent kept leased count =>
    refine ⟨?_, by omega, fun leased' => count ▸ balanced.owed (leased leased')⟩
    rw [loans_snoc, refunds_snoc, lent, if_neg kept]
    omega

section Run

variable {h : List Entry} {q : Queue} {id : JobId} {a : Nat}

/-- The job was enqueued with `a` attempts on its count, or a replay started it, without any. -/
def Brought (h : List Entry) (id : JobId) (a : Nat) : Prop :=
  ∃ e ∈ h, e.accepted? = some id ∧
    ((∃ j, e.call = .enqueue j ∧ a = j.attemptCount) ∨
      ∃ parent child, e.call = .replay parent child ∧ a = 0)

theorem Entry.Creates.brings {e : Entry} {c : Job} (created : e.Creates c) (hq : e.before.Keyed) :
    e.accepted? = some c.id ∧
      ((∃ j, e.call = .enqueue j ∧ c.attemptCount = j.attemptCount) ∨
        ∃ parent child, e.call = .replay parent child ∧ c.attemptCount = 0) := by
  constructor
  · rcases Entry.stored_or_accepted hq created.2 with ⟨k, stored⟩ | acc
    · cases created.1.symm.trans stored
    · exact acc
  · rcases e.call.after_cases e.now e.before with ⟨_, -, same⟩ | ⟨a, -, change⟩
    · have := created.2
      rw [Entry.after, same, created.1] at this
      cases this
    · rcases change.creates hq created.1 created.2 with
        ⟨j, call, same⟩ | ⟨parent, p, call, -, -, -, same, -⟩
      · exact Or.inl ⟨j, call, by rw [same]; rfl⟩
      · exact Or.inr ⟨parent, c.id, call, by rw [same]; rfl⟩

/-- What a job brings with it is the count that it was accepted with. -/
theorem Run.brought_iff (run : Run h q) :
    Brought h id a ↔ ∃ c, Accepts h c ∧ c.id = id ∧ c.attemptCount = a := by
  constructor
  · rintro ⟨e, he, acc, brings⟩
    obtain ⟨pre, post, rfl⟩ := List.append_of_mem he
    obtain ⟨before, fresh⟩ := run.before
    obtain ⟨new, c, stored⟩ := Entry.accepted_new acc
    have own : c.id = id := run.upTo.keyed id c stored
    subst own
    have created : e.Creates c := ⟨before.get?_fresh fresh new, stored⟩
    refine ⟨c, ⟨e, he, created⟩, rfl, ?_⟩
    rcases brings with ⟨j, call, rfl⟩ | ⟨parent, child, call, rfl⟩ <;>
      rcases (created.brings before.keyed).2 with ⟨j', call', count⟩ | ⟨parent', k, call', count⟩
    · cases call.symm.trans call'
      exact count
    · cases call.symm.trans call'
    · cases call.symm.trans call'
    · exact count
  · rintro ⟨c, ⟨e, he, created⟩, rfl, rfl⟩
    obtain ⟨pre, post, rfl⟩ := List.append_of_mem he
    exact ⟨e, he, created.brings run.before.1.keyed⟩

/-- The count of the job, begun at `a`, never reaches the end of its range. -/
def Counts (h : List Entry) (id : JobId) (a : Nat) : Prop :=
  ∀ pre, pre <+: h → a + loans id pre < 2 ^ 32 + refunds id pre

instance (h : List Entry) (id : JobId) (a : Nat) : Decidable (Counts h id a) :=
  decidable_of_iff (∀ pre ∈ h.inits, a + loans id pre < 2 ^ 32 + refunds id pre) <| by
    simp only [Counts, List.mem_inits]

theorem Counts.of_prefix {h' : List Entry} (small : Counts h id a) (sub : h' <+: h) :
    Counts h' id a :=
  fun pre short => small pre (short.trans sub)

/-- A job that is stored at some time of a run has brought with it what the run says it has. -/
theorem Run.brought_stored {h' : List Entry} {q' : Queue} (run : Run h q) (run' : Run h' q')
    (sub : h' <+: h) (brought : Brought h id a) {k : Job} (stored : q'.get? id = some k) :
    Brought h' id a := by
  obtain ⟨c, acc, rfl, rfl⟩ := run.brought_iff.1 brought
  obtain ⟨c', acc', terms⟩ := run'.exists_accepts stored
  have own : c'.id = c.id := (Job.id_of_terms terms).symm.trans (run'.keyed _ _ stored)
  have same : c' = c := run.accepts_unique acc (acc'.mono sub.subset) own
  exact run'.brought_iff.2 ⟨c, same ▸ acc', rfl, rfl⟩

theorem Run.exists_brought (run : Run h q) {j : Job} (stored : q.get? id = some j) :
    ∃ a, Brought h id a := by
  obtain ⟨c, acc, terms⟩ := run.exists_accepts stored
  exact ⟨c.attemptCount, run.brought_iff.2
    ⟨c, acc, (Job.id_of_terms terms).symm.trans (run.keyed _ _ stored), rfl⟩⟩

/-- The account of a job that has just been taken in. -/
theorem Run.balanced_new {e : Entry} (run : Run (h ++ [e]) q) (brought : Brought (h ++ [e]) id a)
    (absent : e.before.get? id = none) {j : Job} (stored : q.get? id = some j) :
    Balanced a (h ++ [e]) id j := by
  obtain ⟨before, fresh, rfl⟩ := run.of_snoc
  have own : j.id = id := run.keyed _ _ stored
  subst own
  have created : e.Creates j := ⟨absent, stored⟩
  have same : a = j.attemptCount := by
    obtain ⟨c, acc, own, rfl⟩ := run.brought_iff.1 brought
    rw [run.accepts_unique acc ⟨e, by simp, created⟩ own.symm]
  obtain ⟨loans, refunds⟩ := before.uncharged (fresh j.id (created.newId before.keyed))
  have unlent : e.lent.count j.id = 0 := by
    rw [List.count_eq_zero, Entry.mem_lent_iff]
    rintro ⟨worker, leases⟩
    obtain ⟨k, found, -⟩ := leases.waiting before.keyed
    cases absent.symm.trans found
  have kept : e.refunded? ≠ some j.id := by
    intro refunded
    obtain ⟨-, -, -, k, -, found, -⟩ := Entry.refunded_by refunded
    cases absent.symm.trans found
  have queued : j.state = .queued := created.queued before.keyed
  refine ⟨?_, by rw [same], fun leased => nomatch queued.symm.trans leased⟩
  rw [loans_snoc, refunds_snoc, loans, refunds, unlent, if_neg kept, same]

theorem Run.balanced (run : Run h q) (brought : Brought h id a) (small : Counts h id a) {j : Job}
    (stored : q.get? id = some j) : Balanced a h id j := by
  -- By induction on the calls: the one that takes the job in opens its account, and every later
  -- one charges it.
  induction h using List.reverseRecOn generalizing q j with
  | nil =>
    obtain ⟨e, he, -⟩ := brought
    cases he
  | append_singleton h e ih =>
    have sub : h <+: h ++ [e] := List.prefix_append h [e]
    obtain ⟨before, fresh, rfl⟩ := run.of_snoc
    cases hk : e.before.get? id with
    | none => exact run.balanced_new brought hk stored
    | some k =>
      have old : e.call.newId? ≠ some id := fun new => by
        rw [before.get?_fresh fresh new] at hk
        cases hk
      have balanced := ih before (run.brought_stored before sub brought hk) (small.of_prefix sub) hk
      exact balanced.snoc (charge before.keyed hk stored old) (small _ (List.prefix_refl _))

/-- The same, at any time of a run. -/
theorem Run.balanced_before {pre post : List Entry} {e : Entry} (run : Run (pre ++ e :: post) q)
    (brought : Brought (pre ++ e :: post) id a) (small : Counts (pre ++ e :: post) id a) {j : Job}
    (stored : e.before.get? id = some j) : Balanced a pre id j := by
  have sub : pre <+: pre ++ e :: post := List.prefix_append _ _
  have before := run.before.1
  exact before.balanced (run.brought_stored before sub brought stored) (small.of_prefix sub) stored

/-- The call renews the lease on the job, or leaves the job as it is. -/
def Entry.Spares (e : Entry) (id : JobId) : Prop :=
  (∃ worker visibility, e.call = .heartbeat id worker visibility) ∨
    e.after.get? id = e.before.get? id

/-- Taking another job in leaves a stored one as it is. -/
theorem Entry.Spares.of_enqueue {e : Entry} {c j : Job} (hq : e.before.Keyed)
    (stored : e.before.get? id = some j) (call : e.call = .enqueue c) (other : c.id ≠ id) :
    e.Spares id := by
  refine Or.inr ?_
  rcases e.call.after_cases e.now e.before with ⟨x, -, same⟩ | ⟨a, -, change⟩
  · rw [Entry.after, same]
  · have old : e.call.newId? ≠ some id := by
      rw [call]
      exact fun same => other (Option.some.inj same)
    have fate := change.fate hq stored old
    rw [call] at fate
    rw [stored, Entry.after, call]
    generalize (Call.after e.now e.before (.enqueue c)).get? id = o at fate
    cases fate
    rfl

/-- A renewal, by whomever it is tried, changes neither the holder nor the count. -/
theorem Entry.Spares.holds {e : Entry} (spares : e.Spares id) (hq : e.before.Keyed)
    {worker : String} {k : Job} (holds : e.before.Holds id worker k) :
    ∃ k', e.after.Holds id worker k' ∧ k'.attemptCount = k.attemptCount := by
  obtain ⟨now, call, q⟩ := e
  rcases spares with ⟨other, visibility, rfl⟩ | same
  · rcases Call.after_cases now q (.heartbeat id other visibility) with
      ⟨x, -, same⟩ | ⟨a, -, change⟩
    · exact ⟨k, by rw [Entry.after, same]; exact holds, rfl⟩
    · have fate := change.fate hq holds.1 (by rintro ⟨⟩)
      generalize ho : (Call.after now q (.heartbeat id other visibility)).get? id = o at fate
      cases fate with
      | untouched => exact ⟨k, ⟨ho, holds.2⟩, rfl⟩
      | renewed => exact ⟨_, ⟨ho, holds.2⟩, rfl⟩
  · exact ⟨k, ⟨same.trans holds.1, holds.2⟩, rfl⟩

/-- A lease hands the job to the worker and adds one to its count. -/
theorem Run.lent_by {pre post : List Entry} {x : Entry} (run : Run (pre ++ x :: post) q)
    {worker : String} (leases : x.Leases worker id) :
    ∃ j k, x.before.get? id = some j ∧ x.after.Holds id worker k ∧ x.lent.count id = 1 ∧
      x.refunded? ≠ some id ∧ k.attemptCount = successor32 j.attemptCount := by
  obtain ⟨before, fresh⟩ := run.before
  obtain ⟨j, stored, -⟩ := leases.waiting before.keyed
  obtain ⟨k, holds, -⟩ := leases.holds before.keyed
  have old : x.call.newId? ≠ some id := fun new => by
    rw [before.get?_fresh fresh new] at stored
    cases stored
  cases charge before.keyed stored holds.1 old with
  | lent lent kept _ count => exact ⟨j, k, stored, holds, lent, kept, count⟩
  | refunded unlent | none unlent =>
    exact absurd (Entry.mem_lent_iff.2 ⟨worker, leases⟩) (List.count_eq_zero.1 unlent)

/-- As long as it is spared, the job stays with the worker that holds it, at the same count. -/
theorem Run.holds_on {pre mid : List Entry} {x : Entry} (run : Run (pre ++ x :: mid) q)
    {worker : String} {k : Job} (holds : x.after.Holds id worker k)
    (spared : ∀ e ∈ mid, e.Spares id) :
    ∃ k', q.Holds id worker k' ∧ k'.attemptCount = k.attemptCount := by
  induction mid using List.reverseRecOn generalizing q with
  | nil =>
    obtain ⟨-, -, rfl⟩ := run.of_snoc
    exact ⟨k, holds, rfl⟩
  | append_singleton mid e ih =>
    rw [← List.cons_append, ← List.append_assoc] at run
    obtain ⟨before, -, rfl⟩ := run.of_snoc
    obtain ⟨k', holds', same⟩ := ih before fun e he => spared e (by simp [he])
    obtain ⟨k'', holds'', same'⟩ := (spared e (by simp)).holds before.keyed holds'
    exact ⟨k'', holds'', same'.trans same⟩

/-- The holder may hand the job back. -/
theorem Holds.release {worker : String} {k : Job} {e : Entry} (holds : e.before.Holds id worker k)
    (keyed : e.before.Keyed) {availableAt : Timestamp} {reason : String} {refund : Bool}
    (call : e.call = .release id worker availableAt reason refund) :
    e.answer = .ok .nothing ∧
      e.after.get? id = some (released availableAt reason refund e.now k) := by
  have done : Call.run e.now e.before (.release id worker availableAt reason refund) =
      .ok (.nothing, e.before.put (released availableAt reason refund e.now k)) := by
    rw [Call.run, Queue.release, holds.held_eq]
    rfl
  rw [Entry.answer, Entry.after, call, Call.answer, Call.after, done]
  exact ⟨rfl, holds.get?_put keyed rfl⟩

/-- There is always an attempt to give back beside those that the job brought with it. -/
theorem Run.refund_exact {pre post : List Entry} {e : Entry} (run : Run (pre ++ e :: post) q)
    (brought : Brought (pre ++ e :: post) id a) (small : Counts (pre ++ e :: post) id a)
    (refunded : e.refunded? = some id) : ∃ j k, e.before.get? id = some j ∧
      e.after.get? id = some k ∧ a < j.attemptCount ∧ k.attemptCount + 1 = j.attemptCount := by
  obtain ⟨worker, availableAt, reason, j, call, holds⟩ := Entry.refunded_by refunded
  have owed := (run.balanced_before brought small holds.1).owed holds.2.1
  refine ⟨j, released availableAt reason true e.now j, holds.1,
    (holds.release run.before.1.keyed call).2, owed, ?_⟩
  show j.attemptCount - 1 + 1 = j.attemptCount
  omega

/-- A release that gives the attempt of a lease back succeeds and restores the count. -/
theorem Run.refund_restores {pre mid post : List Entry} {x y : Entry}
    (run : Run (pre ++ x :: (mid ++ y :: post)) q)
    (brought : Brought (pre ++ x :: (mid ++ y :: post)) id a)
    (small : Counts (pre ++ x :: (mid ++ y :: post)) id a) {worker reason : String}
    {availableAt : Timestamp} (leases : x.Leases worker id) (spared : ∀ e ∈ mid, e.Spares id)
    (call : y.call = .release id worker availableAt reason true) :
    y.answer = .ok .nothing ∧ ∃ j k, x.before.get? id = some j ∧ y.after.get? id = some k ∧
      k.attemptCount = j.attemptCount := by
  have run' : Run ((pre ++ x :: mid) ++ y :: post) q := by simpa using run
  obtain ⟨j, k, stored, holds, lent, kept, count⟩ := run.lent_by leases
  obtain ⟨k', holds', same⟩ := run'.before.1.holds_on holds spared
  obtain ⟨done, left⟩ := holds'.release run'.before.1.keyed call
  refine ⟨done, j, _, stored, left, ?_⟩
  have room := small (pre ++ [x]) ((List.prefix_append_right_inj pre).2 (by simp))
  have next := (run.balanced_before brought small stored).next lent kept room
  show k'.attemptCount - 1 = j.attemptCount
  omega

/-- What is neither lent nor given back keeps its count. -/
theorem Run.count_kept {pre post : List Entry} {e : Entry} (run : Run (pre ++ e :: post) q)
    {j k : Job} (hj : e.before.get? id = some j) (hk : e.after.get? id = some k)
    (unleased : ∀ worker, ¬ e.Leases worker id) (kept : e.refunded? ≠ some id) :
    k.attemptCount = j.attemptCount := by
  obtain ⟨before, fresh⟩ := run.before
  have old : e.call.newId? ≠ some id := fun new => by
    rw [before.get?_fresh fresh new] at hj
    cases hj
  cases charge before.keyed hj hk old with
  | lent lent =>
    have once : 0 < e.lent.count id := by rw [show e.lent.count id = 1 from lent]; decide
    obtain ⟨worker, leases⟩ := Entry.mem_lent_iff.1 (List.count_pos_iff.1 once)
    exact absurd leases (unleased worker)
  | refunded _ refunded => exact absurd refunded kept
  | none _ _ _ count => exact count

/-- A stored job has the attempts that it brought with it, one more for each lease that returned it
and one less for each release that gave one back. It never has fewer than it brought, a release
never finds none to give back, and no other call touches the count; so a lease whose attempt its
holder gives back, whatever else happened meanwhile short of another change of the job than a
renewal, leaves no mark on it. -/
theorem Run.attempts_accounted (run : Run h q) (id : JobId) :
    (∀ j : Job, q.get? id = some j → ∃ a, Brought h id a) ∧
    ∀ a : Nat, Brought h id a → Counts h id a →
      (∀ j : Job, q.get? id = some j →
        j.attemptCount + refunds id h = a + loans id h ∧ a ≤ j.attemptCount) ∧
      (∀ (pre : List Entry) (e : Entry) (post : List Entry), h = pre ++ e :: post →
        (e.refunded? = some id → ∃ j k : Job, e.before.get? id = some j ∧
          e.after.get? id = some k ∧ a < j.attemptCount ∧ k.attemptCount + 1 = j.attemptCount) ∧
        ∀ j k : Job, e.before.get? id = some j → e.after.get? id = some k →
          (∀ worker, ¬ e.Leases worker id) → e.refunded? ≠ some id →
          k.attemptCount = j.attemptCount) ∧
      ∀ (pre mid post : List Entry) (x y : Entry) (worker reason : String)
          (availableAt : Timestamp), h = pre ++ x :: (mid ++ y :: post) →
        x.Leases worker id → (∀ e ∈ mid, e.Spares id) →
        y.call = .release id worker availableAt reason true →
        y.answer = .ok .nothing ∧ ∃ j k : Job, x.before.get? id = some j ∧
          y.after.get? id = some k ∧ k.attemptCount = j.attemptCount := by
  refine ⟨fun j stored => run.exists_brought stored, fun a brought small => ⟨?sum, ?step, ?whole⟩⟩
  case sum =>
    intro j stored
    have balanced := run.balanced brought small stored
    exact ⟨balanced.balance, balanced.floor⟩
  case step =>
    rintro pre e post rfl
    exact ⟨run.refund_exact brought small, fun j k hj hk => run.count_kept hj hk⟩
  case whole =>
    rintro pre mid post x y worker reason availableAt rfl leases spared call
    exact run.refund_restores brought small leases spared call

end Run

/-- A job comes with three attempts. Its first lease is renewed, given back and does not count; the
second ends in a retry, and the third runs out. -/
def thirdTime : List (Timestamp × Call) :=
  [(.epoch, .enqueue { sampleJob 1 "i-1" with attemptCount := 3 }),
    (.epoch, .lease "w-1" 8 (.ofSeconds 60)),
    (.epoch, .enqueue { sampleJob 2 "i-2" with availableAt := .clamp 180000000000 }),
    (.epoch, .heartbeat ⟨.ofNat 1⟩ "w-1" (.ofSeconds 90)),
    (.epoch, .release ⟨.ofNat 1⟩ "w-1" .epoch "paced" true),
    (.epoch, .lease "w-2" 8 (.ofSeconds 60)),
    (.epoch, .release ⟨.ofNat 1⟩ "w-2" .epoch "retry" false),
    (.epoch, .lease "w-1" 8 (.ofSeconds 60)),
    (.clamp 90000000000, .reclaim)]

theorem attempts_accounted_thirdTime : ∃ (h pre mid post : List Entry) (q : Queue) (x y : Entry),
    Run h q ∧
    Brought h ⟨.ofNat 1⟩ 3 ∧ Counts h ⟨.ofNat 1⟩ 3 ∧ loans ⟨.ofNat 1⟩ h = 3 ∧
    refunds ⟨.ofNat 1⟩ h = 1 ∧ (∃ j : Job, q.get? ⟨.ofNat 1⟩ = some j ∧ j.attemptCount + 1 = 3 + 3) ∧
    h = pre ++ x :: (mid ++ y :: post) ∧ x.Leases "w-1" ⟨.ofNat 1⟩ ∧
    (∀ e ∈ mid, e.Spares ⟨.ofNat 1⟩) ∧ y.answer = .ok .nothing ∧
    ∃ j k : Job, x.before.get? ⟨.ofNat 1⟩ = some j ∧ y.after.get? ⟨.ofNat 1⟩ = some k ∧
      k.attemptCount = j.attemptCount := by
  have run := @run_entries thirdTime (by decide +kernel)
  have brought : Brought (entries empty thirdTime) ⟨.ofNat 1⟩ 3 :=
    ⟨_, List.mem_cons_self, by decide +kernel, Or.inl ⟨_, rfl, rfl⟩⟩
  have small : Counts (entries empty thirdTime) ⟨.ofNat 1⟩ 3 := by decide +kernel
  have lent : loans ⟨.ofNat 1⟩ (entries empty thirdTime) = 3 := by decide +kernel
  have back : refunds ⟨.ofNat 1⟩ (entries empty thirdTime) = 1 := by decide +kernel
  have left : ((afterAll empty thirdTime).get? ⟨.ofNat 1⟩).isSome := by decide +kernel
  obtain ⟨j, stored⟩ := Option.isSome_iff_exists.1 left
  obtain ⟨sum, -, whole⟩ := (run.attempts_accounted ⟨.ofNat 1⟩).2 3 brought small
  have count := (sum j stored).1
  rw [lent, back] at count
  have split : ∃ (pre mid post : List Entry) (x y : Entry),
      entries empty thirdTime = pre ++ x :: (mid ++ y :: post) ∧
      x.Leases "w-1" ⟨.ofNat 1⟩ ∧ (∀ e ∈ mid, e.Spares ⟨.ofNat 1⟩) ∧
      y.call = .release ⟨.ofNat 1⟩ "w-1" .epoch "paced" true := by
    refine ⟨[_], [_, _], [_, _, _, _], _, _, rfl, ⟨_, _, _, rfl, rfl, ?_⟩, ?_, rfl⟩
    · decide +kernel
    · rintro e (_ | ⟨_, _ | ⟨_, he⟩⟩)
      · have stored : ((afterAll empty (thirdTime.take 2)).get? ⟨.ofNat 1⟩).isSome := by
          decide +kernel
        obtain ⟨j, stored⟩ := Option.isSome_iff_exists.1 stored
        exact .of_enqueue (Reached.empty.afterAll (thirdTime.take 2)).keyed stored rfl (by decide)
      · exact Or.inl ⟨_, _, rfl⟩
      · cases he
  obtain ⟨pre, mid, post, x, y, split, leases, spared, call⟩ := split
  exact ⟨_, pre, mid, post, _, x, y, run, brought, small, lent, back, ⟨j, stored, count⟩, split,
    leases, spared, whole pre mid post x y _ _ _ split leases spared call⟩

end Courier.Queue
