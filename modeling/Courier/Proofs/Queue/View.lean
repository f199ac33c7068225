import Courier.Proofs.Queue.Change

/-! The queue seen through `get?` and the index of active jobs: what the parts of a change do to
one job and to one intent. A queue is keyed when every job is stored under its own id; every call
keeps it so, whatever ids the callers choose. -/

namespace Courier.Queue

@[simp] theorem get?_empty (id : JobId) : empty.get? id = none := rfl

theorem get?_put (j : Job) (q : Queue) (id : JobId) :
    (q.put j).get? id = if id = j.id then some j else q.get? id := Table.get?_insert _ _ _ _

@[simp] theorem put_active (j : Job) (q : Queue) : (q.put j).active = q.active := rfl

@[simp] theorem get?_settle (id : JobId) (i : String) (q : Queue) (id' : JobId) :
    (q.settle id i).get? id' = q.get? id' := by
  unfold settle
  split_ifs <;> rfl

theorem active_settle (id : JobId) (i : String) (q : Queue) (i' : String) :
    (q.settle id i).active.get? i' =
      if i' = i ∧ q.active.get? i = some id then none else q.active.get? i' := by
  unfold settle
  split_ifs with h h' h'
  · simp [Table.get?_erase, h'.1]
  · have hne : i' ≠ i := fun he => h' ⟨he, h⟩
    simp [Table.get?_erase, hne]
  · exact absurd h'.2 h
  · rfl

theorem get?_takeIn (j : Job) (q : Queue) (id : JobId) :
    (q.takeIn j).get? id = if id = j.id then some j else q.get? id := get?_put j q id

theorem active_takeIn (j : Job) (q : Queue) (i : String) :
    (q.takeIn j).active.get? i = if i = j.intentId then some j.id else q.active.get? i :=
  Table.get?_insert _ _ _ _

theorem get?_reclaim (now : Timestamp) (q : Queue) (id : JobId) :
    (q.reclaim now).2.get? id =
      (q.get? id).map fun j => if isExpired now j then requeue now j else j :=
  Table.get?_mapValues _ _ _

@[simp] theorem reclaim_active (now : Timestamp) (q : Queue) :
    (q.reclaim now).2.active = q.active := rfl

theorem get?_prune (cutoff : Timestamp) (q : Queue) (id : JobId) :
    (q.prune cutoff).2.get? id = (q.get? id).filter fun j => !isPrunable cutoff j :=
  Table.get?_filter _ _ _

@[simp] theorem prune_active (cutoff : Timestamp) (q : Queue) :
    (q.prune cutoff).2.active = q.active := rfl

theorem foldl_put_active (js : List Job) (q : Queue) :
    (js.foldl (fun q j => q.put j) q).active = q.active := by
  induction js generalizing q with
  | nil => rfl
  | cons j js ih => exact ih (q.put j)

theorem get?_foldl_put (js : List Job) (q : Queue) (id : JobId) :
    (∃ j ∈ js, j.id = id ∧ (js.foldl (fun q j => q.put j) q).get? id = some j) ∨
      ((∀ j ∈ js, j.id ≠ id) ∧ (js.foldl (fun q j => q.put j) q).get? id = q.get? id) := by
  induction js generalizing q with
  | nil => exact Or.inr ⟨by simp, rfl⟩
  | cons j js ih =>
    rw [List.foldl_cons]
    rcases ih (q.put j) with ⟨k, hk, hid, hget⟩ | ⟨hne, hget⟩
    · exact Or.inl ⟨k, List.mem_cons_of_mem _ hk, hid, hget⟩
    · rw [get?_put] at hget
      by_cases h : id = j.id
      · exact Or.inl ⟨j, List.mem_cons_self, h.symm, by rw [hget, if_pos h]⟩
      · refine Or.inr ⟨?_, by rw [hget, if_neg h]⟩
        intro k hk
        rcases List.mem_cons.1 hk with rfl | hk
        · exact fun he => h he.symm
        · exact hne k hk

theorem isActive_iff (j : Job) : j.isActive = true ↔ j.state = .queued ∨ j.state = .leased := by
  unfold Job.isActive
  cases j.state <;> simp [JobState.isActive]

theorem isActive_of_leased {j : Job} (h : j.state = .leased) : j.isActive = true :=
  (isActive_iff j).2 (Or.inr h)

theorem isExpired_leased {now : Timestamp} {j : Job} (h : isExpired now j = true) :
    j.state = .leased := by
  simp only [isExpired, Bool.and_eq_true, decide_eq_true_eq] at h
  exact h.1

theorem isEligible_queued {now : Timestamp} {j : Job} (h : isEligible now j = true) :
    j.state = .queued := by
  simp only [isEligible, Bool.and_eq_true, decide_eq_true_eq] at h
  exact h.1

/-- Every job is stored under its own id. -/
def Keyed (q : Queue) : Prop := ∀ id j, q.get? id = some j → j.id = id

theorem Keyed.values_nodup {q : Queue} (hq : q.Keyed) : (q.jobs.values.map Job.id).Nodup :=
  Table.nodup_map_values hq

/-- A job that a lease returns was waiting before, and is stored as it was returned. -/
theorem mem_lease {q : Queue} (hq : q.Keyed) {worker : String} {batch : Nat} {visibility : Span}
    {now : Timestamp} {j : Job} (h : j ∈ (q.lease worker batch visibility now).1) :
    ∃ k, q.get? j.id = some k ∧ isEligible now k = true ∧
      j = leaseTo worker (now.add visibility) now k := by
  unfold lease at h
  obtain ⟨k, hk, rfl⟩ := List.mem_map.1 h
  have hk := List.mem_of_mem_take hk
  unfold eligible at hk
  rw [List.mem_mergeSort, List.mem_filter] at hk
  obtain ⟨id, hid⟩ := (Table.mem_values_iff _ _).1 hk.1
  have he : k.id = id := hq id k hid
  subst he
  exact ⟨k, hid, hk.2, rfl⟩

/-- A lease puts what it returns in the place of what was waiting, and touches nothing else. -/
theorem get?_lease {q : Queue} (hq : q.Keyed) (worker : String) (batch : Nat) (visibility : Span)
    (now : Timestamp) (id : JobId) :
    (∃ k, q.get? id = some k ∧ isEligible now k = true ∧
        leaseTo worker (now.add visibility) now k ∈ (q.lease worker batch visibility now).1 ∧
        (q.lease worker batch visibility now).2.get? id =
          some (leaseTo worker (now.add visibility) now k)) ∨
      ((∀ j ∈ (q.lease worker batch visibility now).1, j.id ≠ id) ∧
        (q.lease worker batch visibility now).2.get? id = q.get? id) := by
  rcases get?_foldl_put (q.lease worker batch visibility now).1 q id with
    ⟨j, hj, hid, hget⟩ | ⟨hne, hget⟩
  · obtain ⟨k, hk, he, rfl⟩ := mem_lease hq hj
    exact Or.inl ⟨k, hid ▸ hk, he, hj, hget⟩
  · exact Or.inr ⟨hne, hget⟩

@[simp] theorem lease_active (worker : String) (batch : Nat) (visibility : Span) (now : Timestamp)
    (q : Queue) : (q.lease worker batch visibility now).2.active = q.active :=
  foldl_put_active _ q

/-- A job that is put in the place of another under the same id. -/
theorem Holds.get?_put {q : Queue} (hq : q.Keyed) {id : JobId} {worker : String} {k k' : Job}
    (h : q.Holds id worker k) (same : k'.id = k.id) : (q.put k').get? id = some k' := by
  rw [Queue.get?_put, if_pos (by rw [same, hq id k h.1])]

theorem keyed_empty : empty.Keyed := by
  intro id j h
  simp at h

theorem Keyed.put {q : Queue} (hq : q.Keyed) (j : Job) : (q.put j).Keyed := by
  intro id k hk
  rw [get?_put] at hk
  split_ifs at hk with h
  · rw [← Option.some.inj hk, h]
  · exact hq id k hk

theorem Keyed.settle {q : Queue} (hq : q.Keyed) (id : JobId) (i : String) :
    (q.settle id i).Keyed := by
  intro id' k hk
  exact hq id' k (by simpa using hk)

theorem Change.keyed {now : Timestamp} {q q' : Queue} {c : Call} {a : Answer}
    (h : Change now q c a q') (hq : q.Keyed) : q'.Keyed := by
  cases h with
  | merged | replayedBefore => exact hq
  | takenIn => exact hq.put _
  | leased =>
    intro id j hj
    rcases get?_lease hq _ _ _ now id with ⟨k, hk, -, -, hget⟩ | ⟨-, hget⟩
    · rw [hget] at hj
      rw [← Option.some.inj hj]
      exact hq id k hk
    · exact hq id j (hget ▸ hj)
  | renewed | released | replayMerged | resolved => exact hq.put _
  | completed | buried => exact (hq.put _).settle _ _
  | reclaimed =>
    intro id j hj
    rw [get?_reclaim, Option.map_eq_some_iff] at hj
    obtain ⟨k, hk, rfl⟩ := hj
    split_ifs
    · exact hq id k hk
    · exact hq id k hk
  | pruned =>
    intro id j hj
    rw [get?_prune, Option.filter_eq_some_iff] at hj
    exact hq id j hj.1
  | replayed => exact (hq.put _).put _

theorem Call.after_keyed (now : Timestamp) {q : Queue} (hq : q.Keyed) (c : Call) :
    (c.after now q).Keyed := by
  rcases c.after_cases now q with ⟨_, -, h⟩ | ⟨_, -, h⟩
  · rw [h]; exact hq
  · exact h.keyed hq

end Courier.Queue
