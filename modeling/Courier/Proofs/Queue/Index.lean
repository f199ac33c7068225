import Courier.Proofs.Queue.Run

/-! The index of active jobs. It names exactly the jobs that wait or are leased, each under its
intent, so that no intent has two. It does so in every run in which new jobs come under new ids,
whatever else the callers bring. -/

namespace Courier.Queue

/-- The index names the waiting and leased jobs by their intents, and no others. -/
def Indexed (q : Queue) : Prop :=
  ∀ i id, q.active.get? i = some id ↔
    ∃ j, q.get? id = some j ∧ j.intentId = i ∧ j.isActive = true

theorem indexed_empty : empty.Indexed := by
  intro i id
  simp [empty, get?]

theorem isPrunable_inactive {cutoff : Timestamp} {j : Job} (h : isPrunable cutoff j = true) :
    j.isActive = false := by
  simp only [isPrunable, Bool.and_eq_true, decide_eq_true_eq] at h
  simp [Job.isActive, JobState.isActive, h.1]

/-- The index stays as it is, and so does the job under an id, but for another record of the same
intent that is as active, or for the end of one that was not active. -/
structure Reworked (q q' : Queue) : Prop where
  index : q'.active = q.active
  jobs : ∀ id, q'.get? id = q.get? id ∨
    (∃ j j', q.get? id = some j ∧ q'.get? id = some j' ∧ j'.intentId = j.intentId ∧
      j'.isActive = j.isActive) ∨
    (q'.get? id = none ∧ ∀ j, q.get? id = some j → j.isActive = false)

namespace Reworked

variable {q q' : Queue}

theorem refl (q : Queue) : Reworked q q := ⟨rfl, fun _ => Or.inl rfl⟩

theorem put (keyed : q.Keyed) {id : JobId} {j j' : Job} (hj : q.get? id = some j)
    (hid : j'.id = j.id) (hi : j'.intentId = j.intentId) (ha : j'.isActive = j.isActive) :
    Reworked q (q.put j') := by
  refine ⟨rfl, fun id' => ?_⟩
  rw [get?_put, hid, keyed id j hj]
  split_ifs with he
  · exact Or.inr (Or.inl ⟨j, j', he ▸ hj, rfl, hi, ha⟩)
  · exact Or.inl rfl

theorem lease (keyed : q.Keyed) (worker : String) (batch : Nat) (visibility : Span)
    (now : Timestamp) : Reworked q (q.lease worker batch visibility now).2 := by
  refine ⟨lease_active _ _ _ now q, fun id => ?_⟩
  rcases get?_lease keyed worker batch visibility now id with ⟨k, hk, he, -, hget⟩ | ⟨-, hget⟩
  · refine Or.inr (Or.inl ⟨k, _, hk, hget, rfl, ?_⟩)
    rw [isActive_of_leased rfl, (isActive_iff k).2 (Or.inl (isEligible_queued he))]
  · exact Or.inl hget

theorem reclaim (now : Timestamp) (q : Queue) : Reworked q (q.reclaim now).2 := by
  refine ⟨reclaim_active now q, fun id => ?_⟩
  rw [get?_reclaim]
  cases hk : q.get? id with
  | none => exact Or.inl rfl
  | some k =>
    rw [Option.map_some]
    split_ifs with he
    · refine Or.inr (Or.inl ⟨k, _, rfl, rfl, rfl, ?_⟩)
      rw [isActive_of_leased (isExpired_leased he)]
      rfl
    · exact Or.inl rfl

theorem prune (cutoff : Timestamp) (q : Queue) : Reworked q (q.prune cutoff).2 := by
  refine ⟨prune_active cutoff q, fun id => ?_⟩
  rw [get?_prune]
  cases hk : q.get? id with
  | none => exact Or.inl rfl
  | some k =>
    by_cases hp : isPrunable cutoff k = true
    · refine Or.inr (Or.inr ⟨by simp [hp], fun j hj => ?_⟩)
      rw [← Option.some.inj hj]
      exact isPrunable_inactive hp
    · exact Or.inl (by simp [hp])

/-- A job that is active stays so under its intent. -/
theorem active (h : Reworked q q') {id : JobId} {j : Job} (hj : q.get? id = some j)
    (ha : j.isActive = true) :
    ∃ j', q'.get? id = some j' ∧ j'.intentId = j.intentId ∧ j'.isActive = true := by
  rcases h.jobs id with same | ⟨k, k', hk, hk', hi, same⟩ | ⟨-, inactive⟩
  · exact ⟨j, same.trans hj, rfl, ha⟩
  · cases hj.symm.trans hk
    exact ⟨k', hk', hi, same.trans ha⟩
  · rw [inactive j hj] at ha
    cases ha

/-- A job that is stored had a record of its intent before. -/
theorem before (h : Reworked q q') {id : JobId} {j' : Job} (hj' : q'.get? id = some j') :
    ∃ j, q.get? id = some j ∧ j'.intentId = j.intentId ∧ j'.isActive = j.isActive := by
  rcases h.jobs id with same | ⟨k, k', hk, hk', hi, ha⟩ | ⟨gone, -⟩
  · exact ⟨j', same.symm.trans hj', rfl, rfl⟩
  · cases hj'.symm.trans hk'
    exact ⟨k, hk, hi, ha⟩
  · rw [gone] at hj'
    cases hj'

end Reworked

/-- What a successful call means to the index: no job comes or goes, or an active one ends, or one
is taken in of an intent that had none. -/
inductive Shift (q : Queue) (c : Call) (a : Answer) : Queue → Prop where
  | reworked {q' : Queue} : Reworked q q' → a.accepted? = none → Shift q c a q'
  | retired {id : JobId} {j j' : Job} : q.get? id = some j → j'.id = j.id →
      j'.intentId = j.intentId → j.isActive = true → j'.isActive = false → a.accepted? = none →
      Shift q c a ((q.put j').settle id j.intentId)
  | taken {q₁ : Queue} {j : Job} : Reworked q q₁ → q.active.get? j.intentId = none →
      j.isActive = true → c.newId? = some j.id → a.accepted? = some j.id →
      Shift q c a (q₁.takeIn j)

theorem Change.shift {now : Timestamp} {q q' : Queue} {c : Call} {a : Answer}
    (h : Change now q c a q') (keyed : q.Keyed) : Shift q c a q' := by
  cases h with
  | merged | replayedBefore => exact .reworked (.refl q) rfl
  | @takenIn j _ hs hfree =>
    exact .taken (j := Queue.takenIn now j) (.refl q) hfree ((isActive_iff _).2 (Or.inl hs)) rfl rfl
  | leased => exact .reworked (.lease keyed _ _ _ now) rfl
  | renewed hh => exact .reworked (.put keyed hh.1 rfl rfl rfl) rfl
  | completed hh | buried hh =>
    exact .retired hh.1 rfl rfl (isActive_of_leased hh.2.1) rfl rfl
  | released hh =>
    refine .reworked (.put keyed hh.1 rfl rfl ?_) rfl
    rw [isActive_of_leased hh.2.1]
    rfl
  | reclaimed => exact .reworked (.reclaim now q) rfl
  | @pruned cutoff => exact .reworked (.prune cutoff q) rfl
  | replayMerged hk | resolved hk => exact .reworked (.put keyed hk rfl rfl rfl) rfl
  | @replayed _ child j hk _ _ hfree =>
    exact .taken (j := j.replayChild child now) (.put keyed hk rfl rfl rfl) hfree rfl rfl rfl

namespace Indexed

variable {q q' : Queue}

theorem reworked (hq : q.Indexed) (h : Reworked q q') : q'.Indexed := by
  intro i id
  rw [h.index, hq]
  constructor
  · rintro ⟨j, hj, hi, ha⟩
    obtain ⟨j', hj', same, ha'⟩ := h.active hj ha
    exact ⟨j', hj', same.trans hi, ha'⟩
  · rintro ⟨j', hj', hi, ha'⟩
    obtain ⟨j, hj, same, ha⟩ := h.before hj'
    exact ⟨j, hj, same ▸ hi, ha ▸ ha'⟩

/-- A new job of an intent that has no active one. -/
theorem takeIn (hq : q.Indexed) {j : Job} (ha : j.isActive = true) (hnew : q.get? j.id = none)
    (hfree : q.active.get? j.intentId = none) : (q.takeIn j).Indexed := by
  intro i id
  rw [active_takeIn, get?_takeIn]
  by_cases hid : id = j.id
  · rw [if_pos hid]
    by_cases hi : i = j.intentId
    · simp [hi, hid, ha]
    · rw [if_neg hi, hq, hid, hnew]
      simp [Ne.symm hi]
  · rw [if_neg hid]
    by_cases hi : i = j.intentId
    · have hnone : ¬ q.active.get? i = some id := by rw [hi, hfree]; simp
      rw [hq] at hnone
      simp only [hi, if_true, Option.some.injEq, Ne.symm hid, false_iff]
      exact hi ▸ hnone
    · rw [if_neg hi, hq]

/-- An active job that ends leaves the index. -/
theorem retire (hq : q.Indexed) (keyed : q.Keyed) {id : JobId} {j j' : Job}
    (hj : q.get? id = some j) (hid : j'.id = j.id) (ha : j.isActive = true)
    (hend : j'.isActive = false) :
    ((q.put j').settle id j.intentId).Indexed := by
  have hown : q.active.get? j.intentId = some id := (hq _ _).2 ⟨j, hj, rfl, ha⟩
  intro i id'
  rw [active_settle, put_active, get?_settle, get?_put, hid, keyed id j hj]
  by_cases hi : i = j.intentId
  · rw [if_pos ⟨hi, hown⟩]
    by_cases he : id' = id
    · simp [he, hend]
    · -- the index named `id` for this intent, so it names no other job
      have hne : ¬ q.active.get? i = some id' := by
        rw [hi, hown]
        exact fun h => he (Option.some.inj h).symm
      rw [hq] at hne
      simpa [if_neg he] using hne
  · rw [if_neg (fun h => hi h.1), hq]
    by_cases he : id' = id
    · rw [if_pos he, he, hj]
      simp [Ne.symm hi, hend]
    · rw [if_neg he]

/-- At most one job of an intent is active. -/
theorem unique (hq : q.Indexed) {id id' : JobId} {j j' : Job} (hj : q.get? id = some j)
    (hj' : q.get? id' = some j') (hi : j.intentId = j'.intentId) (ha : j.isActive = true)
    (ha' : j'.isActive = true) : id = id' := by
  have h := (hq _ _).2 ⟨j, hj, hi, ha⟩
  have h' := (hq _ _).2 ⟨j', hj', rfl, ha'⟩
  rw [h] at h'
  exact Option.some.inj h'

end Indexed

/-- No call upsets the index, provided that new jobs come under new ids. -/
theorem Change.indexed {now : Timestamp} {q q' : Queue} {c : Call} {a : Answer}
    (h : Change now q c a q') (keyed : q.Keyed) (hq : q.Indexed)
    (hnew : ∀ id, c.newId? = some id → q.get? id = none) : q'.Indexed := by
  cases h.shift keyed with
  | reworked same => exact hq.reworked same
  | retired hj hid _ ha hend => exact hq.retire keyed hj hid ha hend
  | @taken q₁ j same hfree ha new =>
    refine (hq.reworked same).takeIn ha ?_ (by rw [same.index]; exact hfree)
    cases hj : q₁.get? j.id with
    | none => rfl
    | some j' =>
      obtain ⟨k, hk, -⟩ := same.before hj
      rw [hnew _ new] at hk
      cases hk

theorem Run.indexed {h : List Entry} {q : Queue} (run : Run h q) : q.Indexed := by
  induction run with
  | nil => exact indexed_empty
  | @snoc h q run now c fresh ih =>
    rcases c.after_cases now q with ⟨_, -, hafter⟩ | ⟨a, -, change⟩
    · rw [hafter]
      exact ih
    · exact change.indexed run.keyed ih fun id => run.get?_fresh fresh

end Courier.Queue
