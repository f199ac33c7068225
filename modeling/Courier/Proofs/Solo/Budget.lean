import Courier.Proofs.Solo.Custody

/-! The budget of attempts. A job whose every call meets a failure of the environment is called for
as often as its attempts say: each lease counts one, each gate that hands it back takes one off, and
the last call buries it. -/

namespace Courier

/-- The job whose turn it is, and what the adapter calls for one job came to. -/
structure Tally where
  turn : Option JobId
  outcomes : List Outcome

/-- The tally for the job `id` after one more event. The turn of a job begins when its lease is
announced and lasts until the next one's. -/
def Tally.note (id : JobId) (t : Tally) : Happening → Tally
  | .deed ⟨.leaseJobs _ _ _, _⟩ => { t with turn := none }
  | .deed ⟨.emit (.leased i _ _), _⟩ => { t with turn := some i }
  | .deed ⟨.callAdapter i, r⟩ =>
    if t.turn = some id then { t with outcomes := t.outcomes ++ [r.toOutcome i.platform] } else t
  | _ => t

def tally (id : JobId) (h : List Moment) : Tally :=
  h.foldl (fun t m => t.note id m.what) ⟨none, []⟩

/-- The outcomes of the adapter calls made for a job. -/
def outcomesFor (id : JobId) (h : List Moment) : List Outcome := (tally id h).outcomes

theorem tally_snoc (id : JobId) (h : List Moment) (m : Moment) :
    tally id (h ++ [m]) = (tally id h).note id m.what := by
  rw [tally, List.foldl_append]
  rfl

theorem Tally.note_quiet {a : Action} (quiet : a.isQuiet = true) (r : a.Reply) (id : JobId)
    (t : Tally) : t.note id (.deed ⟨a, r⟩) = t := by
  cases a with
  | emit n =>
    cases n with
    | leased => cases quiet
    | _ => rfl
  | leaseJobs | callAdapter => cases quiet
  | _ => rfl

theorem Tally.mem_note {id : JobId} {t : Tally} {o : Outcome} (ho : o ∈ t.outcomes)
    (v : Happening) : o ∈ (t.note id v).outcomes := by
  unfold note
  split
  · exact ho
  · exact ho
  · split_ifs
    · exact List.mem_append_left _ ho
    · exact ho
  · exact ho

/-- The job that a caller comes with. -/
def Happening.brings? : Happening → Option Job
  | .deed _ => none
  | .enqueued j _ => some j

/-- Some caller came with a job under this id. -/
def Brought (id : JobId) (h : List Moment) : Prop := ∃ m ∈ h, ∃ j ∈ m.what.brings?, j.id = id

instance (id : JobId) (h : List Moment) : Decidable (Brought id h) :=
  inferInstanceAs (Decidable (∃ m ∈ h, ∃ j ∈ m.what.brings?, j.id = id))

/-- The queue took the job in when a caller came with it. -/
def TakenIn (j : Job) (h : List Moment) : Prop :=
  ∃ m ∈ h, ∃ handle, m.what = .enqueued j (.ok handle) ∧ handle.accepted = true

theorem brought_snoc_deed {id : JobId} {h : List Moment} {e : Engine} {d : Deed} :
    Brought id (h ++ [⟨e, .deed d⟩]) ↔ Brought id h := by
  simp [Brought, Happening.brings?]

theorem takenIn_snoc_deed {j : Job} {h : List Moment} {e : Engine} {d : Deed} :
    TakenIn j (h ++ [⟨e, .deed d⟩]) ↔ TakenIn j h := by
  simp [TakenIn]

namespace Worker

/-- One worker has the queue and the log of attempts to itself; any configuration may be in force in
any cycle. Callers bring jobs under new ids at any time; leases that have run out are taken back,
and completed jobs forgotten, between the cycles only. -/
def shift (worker : String) : Shift where
  starts e := e.queue = .empty ∧ e.attempts = .empty
  cycle p := ∃ cfg, p = runOnce cfg worker
  beside h idle _ v :=
    match v with
    | .enqueued j _ => ¬ Brought j.id h
    | .deed ⟨.reclaimJobs, _⟩ | .deed ⟨.pruneJobs _, _⟩ => idle = true
    | .deed _ => False
  elsewhere e e' := e'.queue = e.queue ∧ e'.attempts = e.attempts

end Worker

variable {worker : String} {j k l : Job} {n : Nat} {e e' : Engine} {s : Stint} {h : List Moment}

/-- The worker holds the stored job `k` and has it in hands as `l`, both with `n` attempts. -/
structure InHand (worker : String) (j k l : Job) (n : Nat) : Prop where
  leased : k.state = .leased
  holder : k.leasedBy = some worker
  count : k.attemptCount = n
  atMost : n ≤ j.maxAttempts
  sameCount : l.attemptCount = n
  sameMost : l.maxAttempts = j.maxAttempts
  sameKey : l.attemptKey = j.attemptKey

/-- What is stored of the job `j` at a stint, after so many calls for it. -/
def Stint.Fits (worker : String) (j : Job) (calls : Nat) (e : Engine) (k : Job) : Stint → Prop
  | loose | away =>
    (k.state = .queued ∧ k.attemptCount = calls ∧ calls < j.maxAttempts ∧
      e.attemptState? j.attemptKey = none) ∨
    (k.state = .dlq ∧ k.dlqState = some .awaitingManualAction ∧
      k.attemptCount = j.maxAttempts ∧ calls = j.maxAttempts)
  | waiting l | held l => InHand worker j k l (calls + 1) ∧ e.attemptState? j.attemptKey = none
  | begun l =>
    InHand worker j k l (calls + 1) ∧ e.attemptState? j.attemptKey = some .inProgress
  | called l => InHand worker j k l calls ∧ e.attemptState? j.attemptKey = some .inProgress
  | cleared l => InHand worker j k l calls ∧ e.attemptState? j.attemptKey = none
  | lost => False

/-- Whose turn it may be at a stint. -/
def Stint.TurnFits (id : JobId) (turn : Option JobId) : Stint → Prop
  | away | waiting _ => turn ≠ some id
  | held _ | begun _ => turn = some id
  | loose | called _ | cleared _ | lost => True

/-- The stored job is `j`, but for what its treatment has changed. -/
structure Engine.Stores (e : Engine) (j k : Job) : Prop where
  stored : e.queue.get? j.id = some k
  sameMost : k.maxAttempts = j.maxAttempts
  sameKey : k.attemptKey = j.attemptKey

/-- The account of the job `j`: nothing is known under its id before somebody comes with it, and
once it is taken in, its attempts agree with the calls for it. -/
structure Account (worker : String) (j : Job) (s : Stint) (h : List Moment) (e : Engine) :
    Prop where
  keyed : e.queue.Keyed
  turn : s.TurnFits j.id (tally j.id h).turn
  before : ¬ Brought j.id h → (s = .loose ∨ s = .away) ∧ outcomesFor j.id h = [] ∧
    e.queue.get? j.id = none ∧ ∀ k : Job, k.id = j.id → e.attemptState? k.attemptKey = none
  after : TakenIn j h → (∀ o ∈ outcomesFor j.id h, o.isEnvironmentFailure = true) →
    ∃ k, e.Stores j k ∧ s.Fits worker j (outcomesFor j.id h).length e k

theorem Engine.Stores.of_same (stores : e.Stores j k)
    (same : e'.queue.get? j.id = e.queue.get? j.id) : e'.Stores j k :=
  { stores with stored := same.trans stores.stored }

theorem Stint.Fits.of_same {calls : Nat} (fits : s.Fits worker j calls e k)
    (same : e'.attemptState? j.attemptKey = e.attemptState? j.attemptKey) :
    s.Fits worker j calls e' k := by
  cases s with
  | lost => exact fits
  | _ => simpa only [Stint.Fits, same] using fits

namespace Account

/-- A job that is on its way has been brought. -/
theorem brought (acc : Account worker j s h e) (under : s ≠ .loose ∧ s ≠ .away) :
    Brought j.id h := by
  by_contra unknown
  rcases (acc.before unknown).1 with hs | hs
  · exact under.1 hs
  · exact under.2 hs

/-- A deed that does nothing for the job or for an attempt at it. -/
theorem carry {s' : Stint} {d : Deed} (acc : Account worker j s h e) (keyed : e'.queue.Keyed)
    (stint : s' = s ∨ (s' = .away ∧ (s = .loose ∨ s = .away)))
    (turn : s'.TurnFits j.id ((tally j.id h).note j.id (.deed d)).turn)
    (uncalled : ((tally j.id h).note j.id (.deed d)).outcomes = (tally j.id h).outcomes)
    (same : e'.queue.get? j.id = e.queue.get? j.id ∧
      ∀ k : Job, k.id = j.id → e'.attemptState? k.attemptKey = e.attemptState? k.attemptKey) :
    Account worker j s' (h ++ [⟨e, .deed d⟩]) e' := by
  have outcomes : outcomesFor j.id (h ++ [⟨e, .deed d⟩]) = outcomesFor j.id h := by
    rw [outcomesFor, tally_snoc, uncalled]
    rfl
  refine ⟨keyed, by rwa [tally_snoc], ?_, ?_⟩
  · rw [brought_snoc_deed, outcomes, same.1]
    intro unknown
    obtain ⟨idle, none_, absent, free⟩ := acc.before unknown
    refine ⟨?_, none_, absent, fun k hk => (same.2 k hk).trans (free k hk)⟩
    rcases stint with rfl | ⟨rfl, -⟩
    · exact idle
    · exact Or.inr rfl
  · rw [takenIn_snoc_deed, outcomes]
    intro taken strained
    obtain ⟨k, stores, fits⟩ := acc.after taken strained
    have fits := fits.of_same (same.2 j rfl)
    refine ⟨k, stores.of_same same.1, ?_⟩
    rcases stint with rfl | ⟨rfl, rfl | rfl⟩
    · exact fits
    · exact fits
    · exact fits

/-- A deed that takes the job on its way a step further, and is no call. -/
theorem advance {s' : Stint} {d : Deed} (acc : Account worker j s h e)
    (under : s ≠ .loose ∧ s ≠ .away) (keyed : e'.queue.Keyed)
    (turn : s'.TurnFits j.id ((tally j.id h).note j.id (.deed d)).turn)
    (uncalled : ((tally j.id h).note j.id (.deed d)).outcomes = (tally j.id h).outcomes)
    (onward : ∀ calls k, e.Stores j k → s.Fits worker j calls e k →
      ∃ k', e'.Stores j k' ∧ s'.Fits worker j calls e' k') :
    Account worker j s' (h ++ [⟨e, .deed d⟩]) e' := by
  refine ⟨keyed, by rwa [tally_snoc], ?_, ?_⟩
  · rw [brought_snoc_deed]
    exact fun unknown => absurd (acc.brought under) unknown
  · rw [takenIn_snoc_deed, outcomesFor, tally_snoc, uncalled]
    intro taken strained
    obtain ⟨k, stores, fits⟩ := acc.after taken strained
    exact onward _ k stores fits

variable {a : Action} {r : a.Reply}

/-- The job is leased, or the lease passes it by. -/
theorem lease {batch : Nat} {visibility : Span} {r : Except Failure (List Job)}
    (acc : Account worker j .loose h e) (bounded : j.maxAttempts < 2 ^ 32) (inMemory : e.InMemory)
    (answers : e.Answers (.leaseJobs worker batch visibility) r e') :
    Account worker j (.after j.id .loose ⟨.leaseJobs worker batch visibility, r⟩)
      (h ++ [⟨e, .deed ⟨.leaseJobs worker batch visibility, r⟩⟩]) e' := by
  have keyed := answers.made.keyed acc.keyed
  have free : ∀ key, e'.attemptState? key = e.attemptState? key :=
    fun key => answers.kept.attemptState? (by rintro ⟨⟩) key
  obtain ⟨jobs, rfl, ⟨k, until_, stored, waits, stored', once⟩ | ⟨same, others⟩⟩ :=
    answers.leased inMemory acc.keyed j.id
  · have after : Stint.after j.id .loose ⟨.leaseJobs worker batch visibility, .ok jobs⟩ =
        .waiting (Queue.leaseTo worker until_ e.now k) := by
      simp only [Stint.after, Stint.ofBatch, once]
    rw [after]
    refine ⟨keyed, by rw [tally_snoc]; rintro ⟨⟩, ?_, ?_⟩
    · rw [brought_snoc_deed]
      intro unknown
      obtain ⟨-, -, absent, -⟩ := acc.before unknown
      rw [stored] at absent
      cases absent
    · rw [takenIn_snoc_deed, outcomesFor, tally_snoc]
      intro taken strained
      obtain ⟨k', stores, fits⟩ := acc.after taken strained
      obtain rfl : k' = k := Option.some.inj (stores.stored.symm.trans stored)
      obtain ⟨-, count, more, free₀⟩ | ⟨dead, -⟩ := fits
      · have next : successor32 k'.attemptCount = (outcomesFor j.id h).length + 1 := by
          rw [successor32, count]
          exact Nat.mod_eq_of_lt (Nat.lt_of_le_of_lt more bounded)
        exact ⟨_, ⟨stored', stores.sameMost, stores.sameKey⟩,
          ⟨rfl, rfl, next, more, next, stores.sameMost, stores.sameKey⟩, (free _).trans free₀⟩
      · rw [waits] at dead
        cases dead
  · have after : Stint.after j.id .loose ⟨.leaseJobs worker batch visibility, .ok jobs⟩ =
        .away := by
      have none_ : (jobs.filter fun k => k.id = j.id) = [] := by
        simpa [List.filter_eq_nil_iff] using others
      simp only [Stint.after, Stint.ofBatch, none_]
    rw [after]
    exact acc.carry keyed (Or.inr ⟨rfl, Or.inl rfl⟩) (by rintro ⟨⟩) rfl ⟨same, fun k _ => free _⟩

/-- What is lost cannot be lost again. -/
theorem adrift {d : Deed} (acc : Account worker j .lost h e) (keyed : e'.queue.Keyed) :
    Account worker j .lost (h ++ [⟨e, .deed d⟩]) e' := by
  refine ⟨keyed, trivial, ?_, ?_⟩
  · rw [brought_snoc_deed]
    exact fun unknown => absurd (acc.brought ⟨nofun, nofun⟩) unknown
  · rw [takenIn_snoc_deed, outcomesFor, tally_snoc]
    intro taken strained
    obtain ⟨k, -, fits⟩ := acc.after taken fun o ho => strained o (Tally.mem_note ho _)
    exact fits.elim

/-- A turn begins. -/
theorem announce {i : JobId} {w : String} {m : Nat} {u : Unit} (acc : Account worker j s h e)
    (permitted : s.Permits worker j.id (.emit (.leased i w m)))
    (answers : e.Answers (.emit (.leased i w m)) u e') :
    Account worker j (s.after j.id ⟨.emit (.leased i w m), u⟩)
      (h ++ [⟨e, .deed ⟨.emit (.leased i w m), u⟩⟩]) e' := by
  have keyed := answers.made.keyed acc.keyed
  have same : e'.queue.get? j.id = e.queue.get? j.id ∧
      ∀ k : Job, k.id = j.id → e'.attemptState? k.attemptKey = e.attemptState? k.attemptKey :=
    ⟨by rw [answers.kept.queue nofun], fun k _ => answers.kept.attemptState? nofun _⟩
  have turn : i ≠ j.id → some i ≠ some j.id := fun other he => other (Option.some.inj he)
  cases s with
  | loose => exact acc.carry keyed (Or.inr ⟨rfl, Or.inl rfl⟩) (turn permitted) rfl same
  | away => exact acc.carry keyed (Or.inl rfl) (turn permitted) rfl same
  | waiting l =>
    rw [Stint.after]
    split_ifs with hi
    · refine acc.advance ⟨nofun, nofun⟩ keyed (congrArg some hi) rfl fun calls k stores fits => ?_
      exact ⟨k, stores.of_same same.1, fits.of_same (same.2 j rfl)⟩
    · exact acc.carry keyed (Or.inl rfl) (turn hi) rfl same
  | lost => exact acc.adrift keyed
  | held | begun | called | cleared => cases permitted

/-- Something is done for another job. -/
theorem spare (acc : Account worker j s h e) (hs : s = .away ∨ ∃ l, s = .waiting l)
    (spares : a.Spares j.id) (answers : e.Answers a r e') :
    Account worker j (s.after j.id ⟨a, r⟩) (h ++ [⟨e, .deed ⟨a, r⟩⟩]) e' := by
  have keyed := answers.made.keyed acc.keyed
  have same := answers.spared acc.keyed spares
  have turn : (tally j.id h).turn ≠ some j.id := by
    obtain rfl | ⟨l, rfl⟩ := hs
    · exact acc.turn
    · exact acc.turn
  have unnoted : (tally j.id h).note j.id (.deed ⟨a, r⟩) = tally j.id h := by
    cases a with
    | callAdapter => exact if_neg turn
    | emit n =>
      cases n with
      | leased => cases spares
      | _ => rfl
    | leaseJobs => cases spares
    | _ => rfl
  have unmoved : s.after j.id ⟨a, r⟩ = s := by
    obtain rfl | ⟨l, rfl⟩ := hs
    · cases a <;> rfl
    · cases a with
      | emit n =>
        cases n with
        | leased => cases spares
        | _ => rfl
      | _ => rfl
  rw [unmoved]
  refine acc.carry keyed (Or.inl rfl) ?_ (by rw [unnoted]) same
  rw [unnoted]
  exact acc.turn

/-- The stored job while the worker holds it. -/
theorem holds {calls : Nat} (stores : e.Stores j k) (hand : InHand worker j k l calls) :
    e.queue.Holds j.id worker k := ⟨stores.stored, hand.leased, hand.holder⟩

theorem turnFits_orLost {α : Type} {id : JobId} {turn : Option JobId} (s : Stint)
    (fits : s.TurnFits id turn) (r : Except Failure α) : (s.orLost r).TurnFits id turn := by
  cases r with
  | error => trivial
  | ok => exact fits

/-- A gate hands the job back, and with it the attempt. -/
theorem deferred {availableAt : Timestamp} {reason : String} {r : Except Failure Unit}
    (acc : Account worker j (.held l) h e) (inMemory : e.InMemory)
    (answers : e.Answers (.releaseJob j.id worker availableAt reason true) r e') :
    Account worker j (.orLost .loose r)
      (h ++ [⟨e, .deed ⟨.releaseJob j.id worker availableAt reason true, r⟩⟩]) e' := by
  refine acc.advance ⟨nofun, nofun⟩ (answers.made.keyed acc.keyed)
    (turnFits_orLost .loose trivial r) rfl fun calls k stores ⟨hand, free⟩ => ?_
  obtain ⟨rfl, stored⟩ := answers.released inMemory acc.keyed (holds stores hand)
  have count : k.attemptCount - 1 = calls := by rw [hand.count, Nat.add_sub_cancel]
  exact ⟨_, ⟨stored, stores.sameMost, stores.sameKey⟩, Or.inl ⟨rfl, count, hand.atMost,
    (answers.kept.attemptState? nofun _).trans free⟩⟩

/-- The attempt begins. -/
theorem began {r : Except Failure Beginning} (acc : Account worker j (.held l) h e)
    (inMemory : e.InMemory) (answers : e.Answers (.beginAttempt l.attemptKey) r e') :
    Account worker j (Stint.after j.id (.held l) ⟨.beginAttempt l.attemptKey, r⟩)
      (h ++ [⟨e, .deed ⟨.beginAttempt l.attemptKey, r⟩⟩]) e' := by
  refine acc.advance ⟨nofun, nofun⟩ (answers.made.keyed acc.keyed) ?_ rfl
    fun calls k stores ⟨hand, free⟩ => ?_
  · rcases r with _ | (_ | _ | _)
    · trivial
    · exact acc.turn
    · trivial
    · trivial
  · rw [hand.sameKey] at answers
    obtain rfl := answers.begun inMemory free
    have queue : e'.queue = e.queue := answers.kept.queue nofun
    exact ⟨k, stores.of_same (by rw [queue]), hand, (answers.mark _).trans (if_pos rfl)⟩

/-- The lease is renewed before the call or after it. -/
theorem kept {visibility : Span} {r : Except Failure Timestamp} {calls : Nat → Nat}
    {attempt : Option AttemptState} (acc : Account worker j s h e)
    (under : s ≠ .loose ∧ s ≠ .away) (inMemory : e.InMemory)
    (fits : ∀ n e k, s.Fits worker j n e k ↔
      InHand worker j k l (calls n) ∧ e.attemptState? j.attemptKey = attempt)
    (answers : e.Answers (.renewLease j.id worker visibility) r e') :
    Account worker j (s.orLost r)
      (h ++ [⟨e, .deed ⟨.renewLease j.id worker visibility, r⟩⟩]) e' := by
  refine acc.advance under (answers.made.keyed acc.keyed) (turnFits_orLost s acc.turn r) rfl
    fun n k stores hk => ?_
  obtain ⟨hand, state⟩ := (fits n e k).1 hk
  obtain ⟨until_, rfl, stored⟩ := answers.renewed inMemory acc.keyed (holds stores hand)
  refine ⟨_, ⟨stored, stores.sameMost, stores.sameKey⟩, (fits n e' _).2 ⟨?_, ?_⟩⟩
  · exact { hand with }
  · exact (answers.kept.attemptState? nofun _).trans state

/-- The adapter is called. -/
theorem call {i : Intent} {r : AdapterReply} (acc : Account worker j (.begun l) h e)
    (answers : e.Answers (.callAdapter i) r e') :
    Account worker j (Stint.after j.id (.begun l) ⟨.callAdapter i, r⟩)
      (h ++ [⟨e, .deed ⟨.callAdapter i, r⟩⟩]) e' := by
  have counted : outcomesFor j.id (h ++ [⟨e, .deed ⟨.callAdapter i, r⟩⟩]) =
      outcomesFor j.id h ++ [r.toOutcome i.platform] := by
    have own : (tally j.id h).turn = some j.id := acc.turn
    rw [outcomesFor, tally_snoc, Tally.note, if_pos own]
    rfl
  refine ⟨answers.made.keyed acc.keyed, ?_, ?_, ?_⟩
  · rw [Stint.after]
    split_ifs <;> trivial
  · rw [brought_snoc_deed]
    exact fun unknown => absurd (acc.brought ⟨nofun, nofun⟩) unknown
  · rw [takenIn_snoc_deed, counted]
    intro taken strained
    obtain ⟨k, stores, hand, begun⟩ := acc.after taken fun o ho =>
      strained o (List.mem_append_left _ ho)
    have met := strained _ (List.mem_append_right _ (List.mem_singleton_self _))
    rw [Stint.after, if_pos met, List.length_append]
    have queue : e'.queue = e.queue := answers.kept.queue nofun
    exact ⟨k, stores.of_same (by rw [queue]), hand,
      (answers.kept.attemptState? nofun _).trans begun⟩

/-- The attempt is given up. -/
theorem gaveUp {r : Except Failure Unit} (acc : Account worker j (.called l) h e)
    (inMemory : e.InMemory) (answers : e.Answers (.clearAttempt l.attemptKey) r e') :
    Account worker j (.orLost (.cleared l) r)
      (h ++ [⟨e, .deed ⟨.clearAttempt l.attemptKey, r⟩⟩]) e' := by
  refine acc.advance ⟨nofun, nofun⟩ (answers.made.keyed acc.keyed)
    (turnFits_orLost (.cleared l) trivial r) rfl fun calls k stores ⟨hand, begun⟩ => ?_
  rw [hand.sameKey] at answers
  obtain rfl := answers.cleared inMemory
  have queue : e'.queue = e.queue := answers.kept.queue nofun
  exact ⟨k, stores.of_same (by rw [queue]), hand, (answers.mark _).trans (if_pos ⟨rfl, begun⟩)⟩

/-- The job is handed back for another attempt. -/
theorem retried {availableAt : Timestamp} {reason : String} {r : Except Failure Unit}
    (acc : Account worker j (.cleared l) h e) (inMemory : e.InMemory)
    (another : l.attemptCount < l.maxAttempts)
    (answers : e.Answers (.releaseJob j.id worker availableAt reason false) r e') :
    Account worker j (.orLost .loose r)
      (h ++ [⟨e, .deed ⟨.releaseJob j.id worker availableAt reason false, r⟩⟩]) e' := by
  refine acc.advance ⟨nofun, nofun⟩ (answers.made.keyed acc.keyed)
    (turnFits_orLost .loose trivial r) rfl fun calls k stores ⟨hand, free⟩ => ?_
  obtain ⟨rfl, stored⟩ := answers.released inMemory acc.keyed (holds stores hand)
  rw [hand.sameCount, hand.sameMost] at another
  exact ⟨_, ⟨stored, stores.sameMost, stores.sameKey⟩, Or.inl ⟨rfl, hand.count, another,
    (answers.kept.attemptState? nofun _).trans free⟩⟩

/-- The job is buried when its attempts are spent. -/
theorem buried {reason : String} {r : Except Failure Unit}
    (acc : Account worker j (.cleared l) h e) (inMemory : e.InMemory)
    (spent : l.maxAttempts ≤ l.attemptCount)
    (answers : e.Answers (.deadLetterJob j.id worker .awaitingManualAction reason) r e') :
    Account worker j (.orLost .loose r)
      (h ++ [⟨e, .deed ⟨.deadLetterJob j.id worker .awaitingManualAction reason, r⟩⟩]) e' := by
  refine acc.advance ⟨nofun, nofun⟩ (answers.made.keyed acc.keyed)
    (turnFits_orLost .loose trivial r) rfl fun calls k stores ⟨hand, free⟩ => ?_
  obtain ⟨rfl, stored⟩ := answers.buried inMemory acc.keyed (holds stores hand)
  rw [hand.sameCount, hand.sameMost] at spent
  have all : calls = j.maxAttempts := Nat.le_antisymm hand.atMost spent
  exact ⟨_, ⟨stored, stores.sameMost, stores.sameKey⟩,
    Or.inr ⟨rfl, rfl, hand.count.trans all, all⟩⟩

/-- The account stays in order whatever the worker does. -/
theorem act (acc : Account worker j s h e) (bounded : j.maxAttempts < 2 ^ 32)
    (allowed : (stint worker j.id).allows s a) (inMemory : e.InMemory)
    (answers : e.Answers a r e') :
    Account worker j (s.after j.id ⟨a, r⟩) (h ++ [⟨e, .deed ⟨a, r⟩⟩]) e' := by
  rcases allowed with quiet | permitted
  · obtain ⟨queue, attempts⟩ := answers.quiet quiet
    have unmoved : (stint worker j.id).after s ⟨a, r⟩ = s := (stint_quiet quiet).2 r
    rw [show s.after j.id ⟨a, r⟩ = s from unmoved]
    refine acc.carry (answers.made.keyed acc.keyed) (Or.inl rfl) ?_ ?_ ⟨by rw [queue], ?_⟩
    · rw [Tally.note_quiet quiet]
      exact acc.turn
    · rw [Tally.note_quiet quiet]
    · intro k _
      rw [Engine.attemptState?, Engine.attemptState?, attempts]
  · cases s with
    | loose =>
      cases a with
      | leaseJobs =>
        obtain rfl := permitted
        exact acc.lease bounded inMemory answers
      | emit n => cases n <;> first | exact acc.announce permitted answers | cases permitted
      | _ => cases permitted
    | away =>
      cases a with
      | emit n =>
        cases n with
        | leased => exact acc.announce permitted answers
        | _ => exact acc.spare (Or.inl rfl) permitted answers
      | _ => exact acc.spare (Or.inl rfl) permitted answers
    | waiting l =>
      cases a with
      | emit n =>
        cases n with
        | leased => exact acc.announce permitted answers
        | _ => exact acc.spare (Or.inr ⟨l, rfl⟩) permitted answers
      | _ => exact acc.spare (Or.inr ⟨l, rfl⟩) permitted answers
    | held l =>
      cases a with
      | releaseJob =>
        obtain ⟨rfl, rfl, rfl⟩ := permitted
        exact acc.deferred inMemory answers
      | beginAttempt =>
        obtain rfl := permitted
        exact acc.began inMemory answers
      | _ => cases permitted
    | begun l =>
      cases a with
      | renewLease =>
        obtain ⟨rfl, rfl⟩ := permitted
        exact acc.kept ⟨by rintro ⟨⟩, by rintro ⟨⟩⟩ inMemory (fun _ _ _ => Iff.rfl) answers
      | callAdapter => exact acc.call answers
      | _ => cases permitted
    | called l =>
      cases a with
      | renewLease =>
        obtain ⟨rfl, rfl⟩ := permitted
        exact acc.kept ⟨by rintro ⟨⟩, by rintro ⟨⟩⟩ inMemory (fun _ _ _ => Iff.rfl) answers
      | clearAttempt =>
        obtain rfl := permitted
        exact acc.gaveUp inMemory answers
      | _ => cases permitted
    | cleared l =>
      cases a with
      | releaseJob =>
        obtain ⟨⟨rfl, rfl, rfl⟩, another⟩ := permitted
        exact acc.retried inMemory another answers
      | deadLetterJob =>
        obtain ⟨⟨rfl, rfl, rfl⟩, spent⟩ := permitted
        exact acc.buried inMemory spent answers
      | _ => cases permitted
    | lost => exact acc.adrift (answers.made.keyed acc.keyed)

end Account

end Courier
