import Courier.Proofs.Queue.Run

/-! What a successful call makes of one stored job. Ten things can happen to it; whatever the call
is about, it meets exactly one of them or none. -/

namespace Courier.Queue

/-- The job and the worker that a call on a lease names. -/
def Call.claim? : Call → Option (JobId × String)
  | heartbeat id worker _ => some (id, worker)
  | complete id worker => some (id, worker)
  | release id worker _ _ _ => some (id, worker)
  | moveToDlq id worker _ _ => some (id, worker)
  | _ => none

/-- Everything that is done with a lease begins by asking for the job. -/
theorem Call.run_claim (now : Timestamp) (q : Queue) {c : Call} {id : JobId} {worker : String}
    (claim : c.claim? = some (id, worker)) : ∃ f, c.run now q = (q.held id worker).map f := by
  cases c with
  | heartbeat id worker visibility =>
    cases claim
    refine ⟨fun j => (.expiry (now.add visibility), q.put (renewed (now.add visibility) now j)), ?_⟩
    rw [run, Queue.heartbeat]
    cases q.held id worker <;> rfl
  | complete id worker =>
    cases claim
    refine ⟨fun j => (.nothing, (q.put (completed now j)).settle id j.intentId), ?_⟩
    rw [run, Queue.complete]
    cases q.held id worker <;> rfl
  | release id worker availableAt reason refund =>
    cases claim
    refine ⟨fun j => (.nothing, q.put (released availableAt reason refund now j)), ?_⟩
    rw [run, Queue.release]
    cases q.held id worker <;> rfl
  | moveToDlq id worker entry reason =>
    cases claim
    refine ⟨fun j => (.nothing, (q.put (buried entry reason now j)).settle id j.intentId), ?_⟩
    rw [run, Queue.moveToDlq]
    cases q.held id worker <;> rfl
  | _ => cases claim

/-- What becomes of the job `j` under `id`, by call and answer. -/
inductive Fate (now : Timestamp) (id : JobId) (j : Job) : Call → Answer → Option Job → Prop where
  | untouched {c : Call} {a : Answer} : (∀ js, a = .jobs js → ∀ k ∈ js, k.id ≠ id) →
      (∀ worker, c.claim? ≠ some (id, worker)) → Fate now id j c a (some j)
  | leased {worker : String} {batch : Nat} {visibility : Span} {js : List Job} :
      isEligible now j = true → leaseTo worker (now.add visibility) now j ∈ js →
      Fate now id j (.lease worker batch visibility) (.jobs js)
        (some (leaseTo worker (now.add visibility) now j))
  | renewed {worker : String} {visibility : Span} : j.state = .leased → j.leasedBy = some worker →
      Fate now id j (.heartbeat id worker visibility) (.expiry (now.add visibility))
        (some (renewed (now.add visibility) now j))
  | completed {worker : String} : j.state = .leased → j.leasedBy = some worker →
      Fate now id j (.complete id worker) .nothing (some (completed now j))
  | released {worker : String} {availableAt : Timestamp} {reason : String} {refund : Bool} :
      j.state = .leased → j.leasedBy = some worker →
      Fate now id j (.release id worker availableAt reason refund) .nothing
        (some (released availableAt reason refund now j))
  | buried {worker : String} {entry : DlqState} {reason : String} : j.state = .leased →
      j.leasedBy = some worker →
      Fate now id j (.moveToDlq id worker entry reason) .nothing (some (buried entry reason now j))
  | requeued {n : Nat} : isExpired now j = true →
      Fate now id j .reclaim (.count n) (some (requeue now j))
  | pruned {cutoff : Timestamp} {n : Nat} : isPrunable cutoff j = true →
      Fate now id j (.prune cutoff) (.count n) none
  | replayed {child : JobId} {a : Handle} : j.state = .dlq →
      j.dlqState = some .awaitingManualAction →
      Fate now id j (.replay id child) (.handle a) (some (close .replayed now j))
  | resolved {entry : DlqState} : j.state = .dlq → entry = .terminal ∨ entry = .resolved →
      (∀ s, j.dlqState = some s → s.isClosed = false) →
      Fate now id j (.resolve id entry) (.job (close entry now j)) (some (close entry now j))

/-- No call brings a dead-lettered job back to life. -/
theorem Fate.dead {now : Timestamp} {id : JobId} {j : Job} {c : Call} {a : Answer} {o : Option Job}
    (h : Fate now id j c a o) (dead : j.state = .dlq) : ∃ k, o = some k ∧ k.state = .dlq := by
  cases h with
  | untouched | replayed | resolved => exact ⟨_, rfl, dead⟩
  | buried => exact ⟨_, rfl, rfl⟩
  | leased eligible =>
    rw [isEligible_queued eligible] at dead
    cases dead
  | renewed leased | completed leased | released leased =>
    rw [leased] at dead
    cases dead
  | requeued expired =>
    simp [isExpired, dead] at expired
  | pruned prunable =>
    simp [isPrunable, dead] at prunable

/-- The job under `id` when another record is put in the place of `k`: either it is `k` or the put
passes it by. -/
theorem get?_put_cases {q : Queue} (hq : q.Keyed) {id id' : JobId} {j k : Job}
    (hj : q.get? id = some j) (hk : q.get? id' = some k) (k' : Job) (hid : k'.id = k.id) :
    (id = id' ∧ j = k ∧ (q.put k').get? id = some k') ∨
      (id' ≠ id ∧ (q.put k').get? id = some j) := by
  rw [get?_put, hid, hq id' k hk]
  by_cases h : id = id'
  · subst h
    rw [hj] at hk
    exact Or.inl ⟨rfl, Option.some.inj hk, if_pos rfl⟩
  · exact Or.inr ⟨Ne.symm h, by rw [if_neg h, hj]⟩

theorem Change.fate {now : Timestamp} {q q' : Queue} {c : Call} {a : Answer}
    (h : Change now q c a q') (hq : q.Keyed) {id : JobId} {j : Job} (hj : q.get? id = some j)
    (hnew : c.newId? ≠ some id) : Fate now id j c a (q'.get? id) := by
  cases h with
  | merged | replayedBefore =>
    rw [hj]
    exact .untouched (by simp) (by simp [Call.claim?])
  | @takenIn k =>
    have hne : id ≠ k.id := fun he => hnew (by rw [he]; rfl)
    rw [get?_takeIn]
    rw [show (Queue.takenIn now k).id = k.id from rfl, if_neg hne, hj]
    exact .untouched (by simp) (by simp [Call.claim?])
  | leased =>
    rcases get?_lease hq _ _ _ now id with ⟨k, hk, he, hmem, hget⟩ | ⟨hne, hget⟩
    · rw [hj] at hk
      rw [hget, ← Option.some.inj hk]
      rw [← Option.some.inj hk] at he hmem
      exact .leased he hmem
    · rw [hget, hj]
      refine .untouched ?_ (by simp [Call.claim?])
      intro js he
      rw [← Answer.jobs.inj he]
      exact hne
  | @renewed id' worker visibility k hh =>
    rcases get?_put_cases hq hj hh.1 (Queue.renewed (now.add visibility) now k) rfl with
      ⟨rfl, rfl, hget⟩ | ⟨hne, hget⟩
    · rw [hget]
      exact .renewed hh.2.1 hh.2.2
    · rw [hget]
      exact .untouched (by simp) (by simp [Call.claim?, hne])
  | @completed id' worker k hh =>
    rw [get?_settle]
    rcases get?_put_cases hq hj hh.1 (Queue.completed now k) rfl with ⟨rfl, rfl, hget⟩ | ⟨hne, hget⟩
    · rw [hget]
      exact .completed hh.2.1 hh.2.2
    · rw [hget]
      exact .untouched (by simp) (by simp [Call.claim?, hne])
  | @released id' worker availableAt reason refund k hh =>
    rcases get?_put_cases hq hj hh.1 (Queue.released availableAt reason refund now k) rfl with
      ⟨rfl, rfl, hget⟩ | ⟨hne, hget⟩
    · rw [hget]
      exact .released hh.2.1 hh.2.2
    · rw [hget]
      exact .untouched (by simp) (by simp [Call.claim?, hne])
  | @buried id' worker entry reason k hh =>
    rw [get?_settle]
    rcases get?_put_cases hq hj hh.1 (Queue.buried entry reason now k) rfl with
      ⟨rfl, rfl, hget⟩ | ⟨hne, hget⟩
    · rw [hget]
      exact .buried hh.2.1 hh.2.2
    · rw [hget]
      exact .untouched (by simp) (by simp [Call.claim?, hne])
  | reclaimed =>
    rw [get?_reclaim, hj, Option.map_some]
    split_ifs with he
    · exact .requeued he
    · exact .untouched (by simp) (by simp [Call.claim?])
  | @pruned cutoff =>
    rw [get?_prune, hj]
    by_cases hp : isPrunable cutoff j = true
    · rw [Option.filter_some_neg (by simp [hp])]
      exact .pruned hp
    · rw [Option.filter_some_pos (by simp [hp])]
      exact .untouched (by simp) (by simp [Call.claim?])
  | @replayMerged id' child active k hk hs hd =>
    rcases get?_put_cases hq hj hk (close .replayed now k) rfl with ⟨rfl, rfl, hget⟩ | ⟨-, hget⟩
    · rw [hget]
      exact .replayed hs hd
    · rw [hget]
      exact .untouched (by simp) (by simp [Call.claim?])
  | @replayed id' child k hk hs hd =>
    have hne : id ≠ child := fun he => hnew (by rw [he]; rfl)
    rw [get?_takeIn]
    rw [show (k.replayChild child now).id = child from rfl, if_neg hne]
    rcases get?_put_cases hq hj hk (close .replayed now k) rfl with ⟨rfl, rfl, hget⟩ | ⟨-, hget⟩
    · rw [hget]
      exact .replayed hs hd
    · rw [hget]
      exact .untouched (by simp) (by simp [Call.claim?])
  | @resolved id' entry k hk hs he ho =>
    rcases get?_put_cases hq hj hk (close entry now k) rfl with ⟨rfl, rfl, hget⟩ | ⟨-, hget⟩
    · rw [hget]
      exact .resolved hs he ho
    · rw [hget]
      exact .untouched (by simp) (by simp [Call.claim?])

/-- A job that is not active never becomes so again. -/
theorem Fate.inactive {now : Timestamp} {id : JobId} {j : Job} {c : Call} {a : Answer}
    {o : Option Job} (h : Fate now id j c a o) (hj : j.isActive = false) :
    ∀ k, o = some k → k.isActive = false := by
  have hl : j.state ≠ .leased := fun hs => by
    rw [isActive_of_leased hs] at hj
    cases hj
  intro k hk
  cases h with
  | untouched => rw [← Option.some.inj hk]; exact hj
  | leased he =>
    rw [(isActive_iff j).2 (Or.inl (isEligible_queued he))] at hj
    cases hj
  | renewed hs | completed hs | released hs | buried hs => exact absurd hs hl
  | requeued he => exact absurd (isExpired_leased he) hl
  | pruned => cases hk
  | replayed | resolved => rw [← Option.some.inj hk]; exact hj

/-- Who holds a job has held it before, or has just leased it. -/
theorem Fate.holds_before {now : Timestamp} {id : JobId} {j k : Job} {c : Call} {a : Answer}
    (h : Fate now id j c a (some k)) {worker : String}
    (notLeased : ∀ batch visibility, c ≠ .lease worker batch visibility)
    (hs : k.state = .leased) (hw : k.leasedBy = some worker) :
    j.state = .leased ∧ j.leasedBy = some worker := by
  generalize ho : some k = o at h
  cases h with
  | untouched => cases ho; exact ⟨hs, hw⟩
  | leased =>
    cases ho
    cases hw
    exact absurd rfl (notLeased _ _)
  | renewed hj => cases ho; exact ⟨hj, hw⟩
  | completed | released | buried | requeued => cases ho; cases hs
  | pruned => cases ho
  | replayed hj | resolved hj =>
    cases ho
    exact nomatch hj.symm.trans hs

/-- A job that is not active was not so before, or the call has just ended it. -/
theorem Change.ended {now : Timestamp} {q q' : Queue} {c : Call} {a : Answer}
    (h : Change now q c a q') (hq : q.Keyed) {id : JobId} {j : Job} (hj : q'.get? id = some j)
    (hj' : j.isActive = false) :
    (∃ k, q.get? id = some k ∧ k.isActive = false) ∨ c.ends? = some id := by
  have put : ∀ {id' : JobId} {k k' : Job}, q.get? id' = some k → (q.put k').get? id = some j →
      k'.id = k.id → (id = id' ∧ j = k') ∨ q.get? id = some j := by
    intro id' k k' hk hj hid
    rw [get?_put, hid, hq id' k hk] at hj
    split_ifs at hj with he
    · exact Or.inl ⟨he, (Option.some.inj hj).symm⟩
    · exact Or.inr hj
  cases h with
  | merged | replayedBefore => exact Or.inl ⟨j, hj, hj'⟩
  | @takenIn k _ hs =>
    rw [get?_takeIn] at hj
    split_ifs at hj
    · rw [← Option.some.inj hj, (isActive_iff (Queue.takenIn now k)).2 (Or.inl hs)] at hj'
      cases hj'
    · exact Or.inl ⟨j, hj, hj'⟩
  | leased =>
    rcases get?_lease hq _ _ _ now id with ⟨k, -, -, -, hget⟩ | ⟨-, hget⟩
    · rw [hget] at hj
      cases hj
      cases (show true = false from hj')
    · exact Or.inl ⟨j, hget ▸ hj, hj'⟩
  | @renewed _ _ visibility k hh =>
    rcases put hh.1 hj rfl with ⟨-, rfl⟩ | hj
    · rw [(isActive_iff (Queue.renewed (now.add visibility) now k)).2 (Or.inr hh.2.1)] at hj'
      cases hj'
    · exact Or.inl ⟨j, hj, hj'⟩
  | completed hh | buried hh =>
    rw [get?_settle] at hj
    rcases put hh.1 hj rfl with ⟨rfl, -⟩ | hj
    · exact Or.inr rfl
    · exact Or.inl ⟨j, hj, hj'⟩
  | released hh =>
    rcases put hh.1 hj rfl with ⟨-, rfl⟩ | hj
    · cases (show true = false from hj')
    · exact Or.inl ⟨j, hj, hj'⟩
  | reclaimed =>
    rw [get?_reclaim, Option.map_eq_some_iff] at hj
    obtain ⟨k, hk, rfl⟩ := hj
    split_ifs at hj'
    · cases (show true = false from hj')
    · exact Or.inl ⟨k, hk, hj'⟩
  | pruned =>
    rw [get?_prune, Option.filter_eq_some_iff] at hj
    exact Or.inl ⟨j, hj.1, hj'⟩
  | replayMerged hk hs | resolved hk hs =>
    rcases put hk hj rfl with ⟨rfl, rfl⟩ | hj
    · exact Or.inl ⟨_, hk, hj'⟩
    · exact Or.inl ⟨j, hj, hj'⟩
  | replayed hk hs =>
    rw [get?_takeIn] at hj
    split_ifs at hj
    · cases hj
      cases hj'
    · rcases put hk hj rfl with ⟨rfl, rfl⟩ | hj
      · exact Or.inl ⟨_, hk, hj'⟩
      · exact Or.inl ⟨j, hj, hj'⟩

/-- Every lease runs out some time. -/
def Expiring (q : Queue) : Prop :=
  ∀ id j, q.get? id = some j → j.state = .leased → j.leaseUntil.isSome = true

theorem expiring_empty : empty.Expiring := by
  intro id j h
  simp at h

theorem Expiring.put {q : Queue} (h : q.Expiring) {j : Job}
    (hj : j.state = .leased → j.leaseUntil.isSome = true) : (q.put j).Expiring := by
  intro id k hk
  rw [get?_put] at hk
  split_ifs at hk
  · exact Option.some.inj hk ▸ hj
  · exact h id k hk

theorem Change.expiring {now : Timestamp} {q q' : Queue} {c : Call} {a : Answer}
    (h : Change now q c a q') (hq : q.Keyed) (he : q.Expiring) : q'.Expiring := by
  have settle : ∀ {q : Queue} {id : JobId} {i : String}, q.Expiring → (q.settle id i).Expiring := by
    intro q id i h id' k hk
    rw [get?_settle] at hk
    exact h id' k hk
  cases h with
  | merged | replayedBefore => exact he
  | takenIn _ hs => exact he.put fun h => nomatch hs.symm.trans h
  | leased =>
    intro id j hj
    rcases get?_lease hq _ _ _ now id with ⟨k, -, -, -, hget⟩ | ⟨-, hget⟩
    · rw [hget] at hj
      rw [← Option.some.inj hj]
      exact fun _ => rfl
    · exact he id j (hget ▸ hj)
  | renewed => exact he.put fun _ => rfl
  | completed | buried => exact settle (he.put nofun)
  | released => exact he.put nofun
  | reclaimed =>
    intro id j hj
    rw [get?_reclaim, Option.map_eq_some_iff] at hj
    obtain ⟨k, hk, rfl⟩ := hj
    split_ifs
    · exact nofun
    · exact he id k hk
  | pruned =>
    intro id j hj
    rw [get?_prune, Option.filter_eq_some_iff] at hj
    exact he id j hj.1
  | replayMerged _ hs | resolved _ hs => exact he.put fun h => nomatch hs.symm.trans h
  | @replayed _ child j _ hs =>
    have closed : (q.put (close .replayed now j)).Expiring :=
      he.put fun h => nomatch hs.symm.trans h
    have taken : ((q.put (close .replayed now j)).put (j.replayChild child now)).Expiring :=
      closed.put nofun
    exact taken

/-- A call on a lease succeeds only for the holder. -/
theorem Change.holder {now : Timestamp} {q q' : Queue} {c : Call} {a : Answer}
    (h : Change now q c a q') {id : JobId} {worker : String}
    (claim : c.claim? = some (id, worker)) : ∃ j, q.Holds id worker j := by
  cases h with
  | @renewed _ _ _ j hh | @completed _ _ j hh | @released _ _ _ _ _ j hh | @buried _ _ _ _ j hh =>
    cases claim
    exact ⟨j, hh⟩
  | _ => cases claim

/-- What ends a job leaves it inactive. -/
theorem Change.inactive {now : Timestamp} {q q' : Queue} {c : Call} {a : Answer}
    (h : Change now q c a q') (hq : q.Keyed) {id : JobId} (ends : c.ends? = some id) {j : Job}
    (hj : q'.get? id = some j) : j.isActive = false := by
  have put : ∀ {k k' : Job}, q.get? id = some k → (q.put k').get? id = some j → k'.id = k.id →
      j = k' := by
    intro k k' hk hj hid
    rw [get?_put, hid, hq id k hk, if_pos rfl] at hj
    exact (Option.some.inj hj).symm
  cases h with
  | completed hh | buried hh =>
    cases ends
    rw [get?_settle] at hj
    rw [put hh.1 hj rfl]
    rfl
  | _ => cases ends

end Courier.Queue
