import Courier.Proofs.Queue.Run

/-! An operator who repeats a replay. The first one marks the entry, and a marked entry answers for
its own child only: whoever repeats the call is shown that child, as long as it is under way, and is
turned away otherwise. In neither case does anything change. -/

namespace Courier.Queue

variable {q q' : Queue} {id child : JobId} {now : Timestamp} {h : Handle}

/-- Whether a replay of entry `id` started the job `active`. -/
def IsChild (q : Queue) (id active : JobId) : Prop :=
  (q.get? active).any (fun c => c.parent = some id) = true

instance (q : Queue) (id active : JobId) : Decidable (q.IsChild id active) :=
  inferInstanceAs (Decidable (_ = true))

theorem activeChild_eq {j : Job} {active : JobId} (hj : j.id = id)
    (index : q.active.get? j.intentId = some active) :
    q.activeChild j = if q.IsChild id active then some active else none := by
  subst hj
  unfold activeChild
  rw [index]
  rfl

theorem isChild_of_activeChild {j : Job} {active : JobId} (hj : j.id = id)
    (found : q.activeChild j = some active) :
    q.active.get? j.intentId = some active ∧ q.IsChild id active := by
  unfold activeChild at found
  split at found
  · rename_i index
    split_ifs at found with own
    cases found
    exact ⟨index, hj ▸ own⟩
  · cases found

/-- An entry that is marked as replayed, with `active` at work on its intent. -/
structure Marked (q : Queue) (id : JobId) (intentId : String) (active : JobId) : Prop where
  entry : ∃ j, q.get? id = some j ∧ j.state = .dlq ∧ j.dlqState = some .replayed ∧
    j.intentId = intentId ∧ j.id = id
  index : q.active.get? intentId = some active

/-- The answer for a marked entry depends on whose child is at work, and nothing changes. -/
theorem Marked.replay {intentId : String} {active : JobId} (m : q.Marked id intentId active) :
    q.replay id child now =
      if q.IsChild id active then .ok (.ofMerged active intentId, q)
      else .error (.notReplayable id (some .replayed)) := by
  obtain ⟨⟨j, stored, dlq, replayed, rfl, own⟩, index⟩ := m
  have found : q.deadLettered id = .ok j := by
    unfold deadLettered
    rw [stored]
    exact if_pos dlq
  have child := activeChild_eq own index
  unfold Queue.replay
  rw [found]
  simp only [bind, Except.bind, replayed, if_true, child]
  split_ifs <;> rfl

/-- A replay that succeeds leaves its entry marked, and names the job at work. -/
theorem marked_of_replay (keyed : q.Keyed) (new : child ≠ id)
    (first : q.replay id child now = .ok (h, q')) : q'.Marked id h.intentId h.jobId := by
  cases replay_ok first with
  | replayedBefore stored dlq replayed found =>
    exact ⟨⟨_, stored, dlq, replayed, rfl, keyed _ _ stored⟩,
      (isChild_of_activeChild rfl found).1⟩
  | @replayMerged _ _ active j stored dlq _ index =>
    have own := keyed _ _ stored
    refine ⟨⟨close .replayed now j, ?_, dlq, rfl, rfl, own⟩, index⟩
    exact (get?_put _ _ _).trans (if_pos own.symm)
  | @replayed _ _ j stored dlq _ _ =>
    have own := keyed _ _ stored
    refine ⟨⟨close .replayed now j, ?_, dlq, rfl, rfl, own⟩, ?_⟩
    · rw [get?_takeIn, if_neg fun he => new he.symm]
      exact (get?_put _ _ _).trans (if_pos own.symm)
    · rw [active_takeIn]
      exact if_pos rfl

/-- A replay that took a job in, or that found the entry marked, names a child of the entry. -/
theorem isChild_of_replay (keyed : q.Keyed) (first : q.replay id child now = .ok (h, q'))
    (own : h.accepted = true ∨ (q.get? id).bind Job.dlqState = some .replayed) :
    q'.IsChild id h.jobId := by
  cases replay_ok first with
  | replayedBefore stored _ _ found =>
    exact (isChild_of_activeChild (keyed _ _ stored) found).2
  | replayMerged stored _ awaiting _ =>
    simp [stored, awaiting, Handle.ofMerged] at own
  | @replayed _ _ j stored dlq _ _ =>
    have taken : ((q.put (close .replayed now j)).takeIn (j.replayChild child now)).get? child =
        some (j.replayChild child now) := (get?_takeIn _ _ _).trans (if_pos rfl)
    unfold IsChild
    rw [show (Handle.ofAccepted (j.replayChild child now)).jobId = child from rfl, taken]
    exact decide_eq_true (congrArg some (keyed _ _ stored))

/-- Whoever repeats a replay changes nothing. They are shown the same job again, not taken in a
second time, if it is a child of the entry, which it is unless the first replay merged an entry that
was still waiting into somebody else's job; then they are told that the entry has been replayed. -/
theorem Reached.replay_again (reached : q.Reached) (new : child ≠ id)
    (first : q.replay id child now = .ok (h, q')) (child' : JobId) (now' : Timestamp) :
    (q'.replay id child' now' =
        if q'.IsChild id h.jobId then .ok (.ofMerged h.jobId h.intentId, q')
        else .error (.notReplayable id (some .replayed))) ∧
      (h.accepted = true ∨ (q.get? id).bind Job.dlqState = some .replayed →
        q'.IsChild id h.jobId) :=
  ⟨(marked_of_replay reached.keyed new first).replay, isChild_of_replay reached.keyed first⟩

/-- A job that ended in the dead-letter queue. -/
def buriedOnce : Queue :=
  empty.afterAll
    [(.epoch, .enqueue (sampleJob 1 "post-1")),
      (.epoch, .lease "w-1" 1 (.ofMillis 30000)),
      (.epoch, .moveToDlq ⟨.ofNat 1⟩ "w-1" .awaitingManualAction "boom")]

theorem replay_again_buriedOnce : ∃ h q',
    buriedOnce.replay ⟨.ofNat 1⟩ ⟨.ofNat 3⟩ .epoch = .ok (h, q') ∧ h.accepted = true ∧
      q'.replay ⟨.ofNat 1⟩ ⟨.ofNat 4⟩ .epoch = .ok (.ofMerged h.jobId h.intentId, q') := by
  have accepted : (match buriedOnce.replay ⟨.ofNat 1⟩ ⟨.ofNat 3⟩ .epoch with
    | .ok (h, _) => h.accepted
    | .error _ => false) = true := by decide +kernel
  split at accepted
  · rename_i h q' first
    obtain ⟨again, own⟩ :=
      (Reached.empty.afterAll _).replay_again (by decide) first ⟨.ofNat 4⟩ .epoch
    exact ⟨h, q', first, accepted, again.trans (if_pos (own (Or.inl accepted)))⟩
  · cases accepted

/-- Another job of the same intent has come in before the replay. -/
def anotherWaits : Queue := buriedOnce.afterAll [(.epoch, .enqueue (sampleJob 2 "post-1"))]

/-- So the second replay of an entry may fail where the first one succeeded. -/
theorem exists_replay_refused_again : anotherWaits.Reached ∧ ∃ h q',
    anotherWaits.replay ⟨.ofNat 1⟩ ⟨.ofNat 3⟩ .epoch = .ok (h, q') ∧
      q'.replay ⟨.ofNat 1⟩ ⟨.ofNat 4⟩ .epoch =
        .error (.notReplayable ⟨.ofNat 1⟩ (some .replayed)) := by
  have reached : anotherWaits.Reached := (Reached.empty.afterAll _).afterAll _
  have strange : (match anotherWaits.replay ⟨.ofNat 1⟩ ⟨.ofNat 3⟩ .epoch with
    | .ok (h, q') => !decide (q'.IsChild ⟨.ofNat 1⟩ h.jobId)
    | .error _ => false) = true := by decide +kernel
  split at strange
  · rename_i h q' first
    have marked := marked_of_replay reached.keyed (by decide) first
    exact ⟨reached, h, q', first, marked.replay.trans (if_neg (by simpa using strange))⟩
  · cases strange

end Courier.Queue
