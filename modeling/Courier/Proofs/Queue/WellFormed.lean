import Courier.Proofs.Queue.Index

/-! Well-formed queues. The index names exactly the waiting and leased jobs, one an intent at most;
a job has a holder and an expiry while it is leased, and a decision while it is dead-lettered.
Every run keeps it so, and that is why an enqueue merges exactly when the work is under way. -/

namespace Courier.Queue

/-- A job that may be stored under `id`. -/
structure Sound (id : JobId) (j : Job) : Prop where
  keyed : j.id = id
  valid : j.check = .ok ()
  holder : j.leasedBy.isSome ↔ j.state = .leased
  expiry : j.leaseUntil.isSome ↔ j.state = .leased
  decision : j.dlqState.isSome ↔ j.state = .dlq

structure WellFormed (q : Queue) : Prop where
  sound : ∀ id j, q.get? id = some j → Sound id j
  indexed : ∀ i id, q.active.get? i = some id ↔
    ∃ j, q.get? id = some j ∧ j.intentId = i ∧ j.isActive = true

namespace Sound

variable {id : JobId} {j : Job}

theorem undecided (h : Sound id j) (hs : j.state ≠ .dlq) : j.dlqState = none := by
  have := mt h.decision.1 hs
  simpa using this

theorem leaseTo (h : Sound id j) (hs : j.state = .queued) (worker : String)
    (until_ now : Timestamp) : Sound id (leaseTo worker until_ now j) where
  keyed := h.keyed
  valid := h.valid
  holder := by simp [Queue.leaseTo]
  expiry := by simp [Queue.leaseTo]
  decision := by simp [Queue.leaseTo, h.undecided (by simp [hs])]

theorem renewed (h : Sound id j) (hs : j.state = .leased) (until_ now : Timestamp) :
    Sound id (renewed until_ now j) where
  keyed := h.keyed
  valid := h.valid
  holder := h.holder
  expiry := by simp [Queue.renewed, hs]
  decision := h.decision

theorem completed (h : Sound id j) (hs : j.state = .leased) (now : Timestamp) :
    Sound id (completed now j) where
  keyed := h.keyed
  valid := h.valid
  holder := by simp [Queue.completed]
  expiry := by simp [Queue.completed]
  decision := by simp [Queue.completed, h.undecided (by simp [hs])]

theorem released (h : Sound id j) (hs : j.state = .leased) (availableAt : Timestamp)
    (reason : String) (refund : Bool) (now : Timestamp) :
    Sound id (released availableAt reason refund now j) where
  keyed := h.keyed
  valid := h.valid
  holder := by simp [Queue.released]
  expiry := by simp [Queue.released]
  decision := by simp [Queue.released, h.undecided (by simp [hs])]

theorem buried (h : Sound id j) (entry : DlqState) (reason : String) (now : Timestamp) :
    Sound id (buried entry reason now j) where
  keyed := h.keyed
  valid := h.valid
  holder := by simp [Queue.buried]
  expiry := by simp [Queue.buried]
  decision := by simp [Queue.buried]

theorem requeue (h : Sound id j) (hs : j.state = .leased) (now : Timestamp) :
    Sound id (requeue now j) where
  keyed := h.keyed
  valid := h.valid
  holder := by simp [Queue.requeue]
  expiry := by simp [Queue.requeue]
  decision := by simp [Queue.requeue, h.undecided (by simp [hs])]

theorem close (h : Sound id j) (hs : j.state = .dlq) (entry : DlqState) (now : Timestamp) :
    Sound id (close entry now j) where
  keyed := h.keyed
  valid := h.valid
  holder := h.holder
  expiry := h.expiry
  decision := by simp [Queue.close, hs]

theorem replayChild (h : Sound id j) (child : JobId) (now : Timestamp) :
    Sound child (j.replayChild child now) where
  keyed := rfl
  valid := (Job.check_ok_iff _).2 ((Job.check_ok_iff j).1 h.valid)
  holder := by simp [Job.replayChild]
  expiry := by simp [Job.replayChild]
  decision := by simp [Job.replayChild]

end Sound

/-- Every stored job may be stored under its id. -/
def AllSound (q : Queue) : Prop := ∀ id j, q.get? id = some j → Sound id j

theorem AllSound.put {q : Queue} (hq : q.AllSound) {id : JobId} {j : Job} (hs : Sound id j) :
    (q.put j).AllSound := by
  intro id' k hk
  rw [get?_put, hs.keyed] at hk
  split_ifs at hk with he
  · rw [he, ← Option.some.inj hk]
    exact hs
  · exact hq id' k hk

theorem AllSound.settle {q : Queue} (hq : q.AllSound) (id : JobId) (i : String) :
    (q.settle id i).AllSound := fun id' k hk => hq id' k (by simpa using hk)

theorem wellFormed_empty : empty.WellFormed where
  sound := by intro id j h; simp at h
  indexed := indexed_empty

theorem WellFormed.keyed {q : Queue} (hq : q.WellFormed) : q.Keyed :=
  fun id j h => (hq.sound id j h).keyed

/-- Whether a call brings a job about which a decision is already taken. -/
def Call.isDecided : Call → Bool
  | enqueue j => j.dlqState.isSome
  | _ => false

/-- Every call keeps the jobs sound, provided that new ones come undecided. -/
theorem Change.allSound {now : Timestamp} {q q' : Queue} {c : Call} {a : Answer}
    (h : Change now q c a q') (hq : q.AllSound) (hund : c.isDecided = false) : q'.AllSound := by
  cases h with
  | merged | replayedBefore => exact hq
  | @takenIn j hv hs =>
    have sound : Sound j.id (Queue.takenIn now j) := by
      refine ⟨rfl, hv, ?_, ?_, ?_⟩
      · simp [Queue.takenIn, hs]
      · simp [Queue.takenIn, hs]
      · simp only [Call.isDecided] at hund
        simp [Queue.takenIn, hs, hund]
    exact hq.put sound
  | leased =>
    intro id j hj
    rcases get?_lease (fun id j h => (hq id j h).keyed) _ _ _ now id with
      ⟨k, hk, he, -, hget⟩ | ⟨-, hget⟩
    · rw [hget] at hj
      rw [← Option.some.inj hj]
      exact (hq id k hk).leaseTo (isEligible_queued he) _ _ _
    · exact hq id j (hget ▸ hj)
  | renewed hh => exact hq.put ((hq _ _ hh.1).renewed hh.2.1 _ now)
  | completed hh => exact (hq.put ((hq _ _ hh.1).completed hh.2.1 now)).settle _ _
  | released hh => exact hq.put ((hq _ _ hh.1).released hh.2.1 _ _ _ now)
  | buried hh => exact (hq.put ((hq _ _ hh.1).buried _ _ now)).settle _ _
  | reclaimed =>
    intro id j hj
    rw [get?_reclaim, Option.map_eq_some_iff] at hj
    obtain ⟨k, hk, rfl⟩ := hj
    split_ifs with he
    · exact (hq id k hk).requeue (isExpired_leased he) now
    · exact hq id k hk
  | pruned =>
    intro id j hj
    rw [get?_prune, Option.filter_eq_some_iff] at hj
    exact hq id j hj.1
  | replayMerged hk hs | resolved hk hs => exact hq.put ((hq _ _ hk).close hs _ now)
  | replayed hk hs =>
    exact (hq.put ((hq _ _ hk).close hs _ now)).put ((hq _ _ hk).replayChild _ now)

/-- No call upsets a well-formed queue, provided that new jobs come undecided and under new ids. -/
theorem Change.wellFormed {now : Timestamp} {q q' : Queue} {c : Call} {a : Answer}
    (h : Change now q c a q') (hq : q.WellFormed)
    (hnew : ∀ id, c.newId? = some id → q.get? id = none)
    (hund : c.isDecided = false) : q'.WellFormed :=
  ⟨h.allSound hq.sound hund, h.indexed hq.keyed hq.indexed hnew⟩

def Undecided (h : List Entry) : Prop := ∀ e ∈ h, e.call.isDecided = false

theorem Run.wellFormed {h : List Entry} {q : Queue} (run : Run h q) (hu : Undecided h) :
    q.WellFormed := by
  induction run with
  | nil => exact wellFormed_empty
  | @snoc h q run now c fresh ih =>
    have hq := ih fun e he => hu e (List.mem_append_left _ he)
    rcases c.after_cases now q with ⟨_, -, hafter⟩ | ⟨a, -, change⟩
    · rw [hafter]
      exact hq
    · exact change.wellFormed hq (fun id => run.get?_fresh fresh) (hu ⟨now, c, q⟩ (by simp))

namespace WellFormed

variable {q : Queue}

/-- An enqueue of a valid job succeeds; it merges into the active job of the intent, if any. -/
theorem enqueue_merges_iff (hq : q.WellFormed) {j : Job} (hv : j.check = .ok ())
    (hs : j.state = .queued) (now : Timestamp) :
    ∃ h q', q.enqueue j now = .ok (h, q') ∧ (h.accepted = true ↔ h.mergedInto = none) ∧
      ∀ id, h.mergedInto = some id ↔
        ∃ k, q.get? id = some k ∧ k.intentId = j.intentId ∧ k.isActive = true := by
  have hdo : q.enqueue j now = (q.active.get? j.intentId).elim
      (.ok (.ofAccepted j, q.takeIn (takenIn now j)))
      fun existing => .ok (.ofMerged existing j.intentId, q) := by
    simp only [enqueue, hv, bind, Except.bind]
    rw [if_neg (not_not_intro hs)]
    cases q.active.get? j.intentId <;> rfl
  simp only [← hq.indexed]
  cases hi : q.active.get? j.intentId with
  | none =>
    rw [hi] at hdo
    exact ⟨_, _, hdo, by simp [Handle.ofAccepted], by simp [Handle.ofAccepted]⟩
  | some id =>
    rw [hi] at hdo
    exact ⟨_, _, hdo, by simp [Handle.ofMerged], by simp [Handle.ofMerged]⟩

end WellFormed

/-- After any run the queue is well-formed, no intent has two active jobs, and an enqueue merges
into the active job of its intent exactly when there is one. -/
theorem Run.index_exact {h : List Entry} {q : Queue} (run : Run h q) (hu : Undecided h) :
    q.WellFormed ∧
      (∀ id id' j j', q.get? id = some j → q.get? id' = some j' → j.intentId = j'.intentId →
        j.isActive = true → j'.isActive = true → id = id') ∧
      ∀ j now, j.check = .ok () → j.state = .queued →
        ∃ h q', q.enqueue j now = .ok (h, q') ∧ (h.accepted = true ↔ h.mergedInto = none) ∧
          ∀ id, h.mergedInto = some id ↔
            ∃ k, q.get? id = some k ∧ k.intentId = j.intentId ∧ k.isActive = true := by
  have hq := run.wellFormed hu
  refine ⟨hq, ?_, ?_⟩
  · intro id id' j j' hj hj' hi ha ha'
    exact Indexed.unique hq.indexed hj hj' hi ha ha'
  · intro j now hv hs
    exact hq.enqueue_merges_iff hv hs now

/-- A job that is merged into while it waits, dies, and is started again as another. -/
def secondLife : List (Timestamp × Call) :=
  [(.epoch, .enqueue (sampleJob 1 "i-1")),
    (.epoch, .enqueue (sampleJob 2 "i-1")),
    (.epoch, .lease "w-1" 8 (.ofSeconds 60)),
    (.epoch, .moveToDlq ⟨.ofNat 1⟩ "w-1" .awaitingManualAction "boom"),
    (.epoch, .replay ⟨.ofNat 1⟩ ⟨.ofNat 3⟩),
    (.epoch, .lease "w-2" 8 (.ofSeconds 60)),
    (.clamp 90000000000, .reclaim),
    (.clamp 90000000000, .prune .epoch)]

theorem index_exact_secondLife : ∃ h q, Run h q ∧ Undecided h ∧
    (∃ j, q.get? ⟨.ofNat 3⟩ = some j ∧ j.state = .queued) ∧ q.WellFormed := by
  have run := @run_entries secondLife (by decide +kernel)
  have hu : Undecided (entries empty secondLife) := by
    unfold Undecided
    decide +kernel
  have hlast : ((afterAll empty secondLife).get? ⟨.ofNat 3⟩).map Job.state = some .queued := by
    decide +kernel
  exact ⟨_, _, run, hu, Option.map_eq_some_iff.1 hlast, (run.index_exact hu).1⟩

end Courier.Queue
