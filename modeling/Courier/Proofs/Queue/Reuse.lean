import Courier.Proofs.Queue.Conservation

/-! What an enqueue does to the jobs that are stored already, when callers may use an id twice. A job
that is taken in under an id in use displaces the one that is there. If that one was waiting or
leased, the index goes on naming the id for its intent, and from then on work for that intent is
merged into a job of another. -/

namespace Courier.Queue

/-- Runs in which new jobs may come under any ids. -/
inductive Past : List Entry → Queue → Prop where
  | nil : Past [] empty
  | snoc {h : List Entry} {q : Queue} (past : Past h q) (now : Timestamp) (c : Call) :
      Past (h ++ [⟨now, c, q⟩]) (c.after now q)

theorem Run.past {h : List Entry} {q : Queue} (run : Run h q) : Past h q := by
  induction run with
  | nil => exact .nil
  | snoc _ now c _ ih => exact ih.snoc now c

theorem Past.keyed {h : List Entry} {q : Queue} (past : Past h q) : q.Keyed := by
  induction past with
  | nil => exact keyed_empty
  | snoc _ now c ih => exact c.after_keyed now ih

theorem Past.extend {h : List Entry} {q : Queue} (past : Past h q)
    (steps : List (Timestamp × Call)) : Past (h ++ entries q steps) (afterAll q steps) := by
  induction steps generalizing h q with
  | nil => simpa [entries, afterAll] using past
  | cons s rest ih =>
    have := ih (past.snoc s.1 s.2)
    rwa [List.append_assoc] at this

/-- The call takes a job in under the id that the index has for the intent `i`. -/
def Entry.Ousts (e : Entry) (i : String) : Prop :=
  ∃ id, e.accepted? = some id ∧ e.before.active.get? i = some id

/-- The active job of the intent `i` was displaced by another at some time. -/
def Ousted (h : List Entry) (i : String) : Prop := ∃ e ∈ h, e.Ousts i

theorem ousted_snoc {h : List Entry} {e : Entry} {i : String} :
    Ousted (h ++ [e]) i ↔ Ousted h i ∨ e.Ousts i := by
  simp [Ousted, or_and_right, exists_or]

/-- The index names an active job of the intent, or none. -/
def Points (q : Queue) (i : String) : Prop :=
  ∀ id, q.active.get? i = some id →
    ∃ j, q.get? id = some j ∧ j.intentId = i ∧ j.isActive = true

/-- The index names an id for the intent under which no job of it is stored. -/
def Astray (q : Queue) (i : String) : Prop :=
  ∃ id, q.active.get? i = some id ∧ ∀ j, q.get? id = some j → j.intentId ≠ i

section Shift

variable {q q' : Queue} {c : Call} {a : Answer} {i : String}

/-- Once astray, the index stays so: no job of the intent ends under that id, and none is taken in
as long as the index has an entry for the intent. -/
theorem Shift.astray (h : Shift q c a q') (keyed : q.Keyed) (astray : q.Astray i) :
    q'.Astray i := by
  obtain ⟨id, named, others⟩ := astray
  cases h with
  | reworked same =>
    refine ⟨id, by rw [same.index]; exact named, fun j' hj' => ?_⟩
    obtain ⟨j, hj, hi, -⟩ := same.before hj'
    rw [hi]
    exact others j hj
  | @retired own j j' hj hid hi =>
    have stays : ¬ (i = j.intentId ∧ q.active.get? j.intentId = some own) := by
      rintro ⟨rfl, ends⟩
      cases named.symm.trans ends
      exact others j hj rfl
    refine ⟨id, by rw [active_settle, put_active, if_neg stays]; exact named, fun k hk => ?_⟩
    rw [get?_settle, get?_put, hid, keyed own j hj] at hk
    split_ifs at hk with at_
    · cases hk
      rw [hi]
      exact others j (at_ ▸ hj)
    · exact others k hk
  | @taken q₁ j same hfree =>
    have hne : i ≠ j.intentId := by
      rintro rfl
      rw [hfree] at named
      cases named
    refine ⟨id, by rw [active_takeIn, if_neg hne, same.index]; exact named, fun k hk => ?_⟩
    rw [get?_takeIn] at hk
    split_ifs at hk
    · cases hk
      exact hne.symm
    · obtain ⟨k₀, hk₀, hi, -⟩ := same.before hk
      rw [hi]
      exact others k₀ hk₀

/-- The index leaves an intent only when its job is displaced. -/
theorem Shift.points (h : Shift q c a q') (keyed : q.Keyed) (points : q.Points i) :
    ((∃ id, a.accepted? = some id ∧ q.active.get? i = some id) → q'.Astray i) ∧
      (¬ (∃ id, a.accepted? = some id ∧ q.active.get? i = some id) → q'.Points i) := by
  cases h with
  | reworked same none_new =>
    refine ⟨fun ⟨id, new, _⟩ => (nomatch none_new.symm.trans new), fun _ id named => ?_⟩
    rw [same.index] at named
    obtain ⟨j, hj, rfl, ha⟩ := points id named
    exact same.active hj ha
  | @retired own j j' hj hid _ _ _ none_new =>
    refine ⟨fun ⟨id, new, _⟩ => (nomatch none_new.symm.trans new), fun _ id named => ?_⟩
    rw [active_settle, put_active] at named
    split_ifs at named with ends
    obtain ⟨k, hk, rfl, ha⟩ := points id named
    have other : id ≠ own := by
      rintro rfl
      cases hk.symm.trans hj
      exact ends ⟨rfl, named⟩
    refine ⟨k, ?_, rfl, ha⟩
    rw [get?_settle, get?_put, hid, keyed own j hj, if_neg other]
    exact hk
  | @taken q₁ j same hfree ha _ new =>
    constructor
    · rintro ⟨id, new', named⟩
      cases new.symm.trans new'
      have hne : i ≠ j.intentId := by
        rintro rfl
        rw [hfree] at named
        cases named
      refine ⟨j.id, by rw [active_takeIn, if_neg hne, same.index]; exact named, fun k hk => ?_⟩
      rw [get?_takeIn, if_pos rfl] at hk
      cases hk
      exact hne.symm
    · intro spared id named
      rw [active_takeIn] at named
      split_ifs at named with own
      · cases named
        exact ⟨j, by rw [get?_takeIn, if_pos rfl], own.symm, ha⟩
      · rw [same.index] at named
        have other : id ≠ j.id := by
          rintro rfl
          exact spared ⟨_, new, named⟩
        obtain ⟨k, hk, rfl, hk'⟩ := points id named
        rw [get?_takeIn, if_neg other]
        exact same.active hk hk'

end Shift

section Past

variable {h : List Entry} {q q' : Queue} {i : String} {j : Job} {now : Timestamp} {a : Handle}

/-- The index goes astray with an intent when the active job of the intent is displaced, and for no
other reason. -/
theorem Past.index (past : Past h q) (i : String) :
    (¬ Ousted h i → q.Points i) ∧ (Ousted h i → q.Astray i) := by
  induction past with
  | nil => exact ⟨fun _ id named => by simp [empty] at named, by simp [Ousted]⟩
  | @snoc h q past now c ih =>
    rw [ousted_snoc]
    rcases c.after_cases now q with ⟨e, answer, same⟩ | ⟨a, answer, change⟩
    · have spared : ¬ Entry.Ousts ⟨now, c, q⟩ i := by
        rintro ⟨id, acc, -⟩
        simp [Entry.accepted?, Entry.answer, answer] at acc
      rw [same, or_iff_left spared]
      exact ih
    · have acc : Entry.accepted? ⟨now, c, q⟩ = a.accepted? := by
        simp [Entry.accepted?, Entry.answer, answer]
      have shift := change.shift past.keyed
      rw [Entry.Ousts, acc]
      by_cases before : Ousted h i
      · exact ⟨fun spared => (spared (Or.inl before)).elim,
          fun _ => shift.astray past.keyed (ih.2 before)⟩
      · have step := shift.points past.keyed (ih.1 before)
        exact ⟨fun spared => step.2 fun ousts => spared (Or.inr ousts),
          fun ousted => step.1 (ousted.resolve_left before)⟩

/-- Under new ids nobody is displaced. -/
theorem Run.not_ousted (run : Run h q) (i : String) : ¬ Ousted h i := by
  rintro ⟨e, he, id, acc, named⟩
  obtain ⟨pre, post, rfl⟩ := List.append_of_mem he
  obtain ⟨before, fresh⟩ := run.before
  obtain ⟨k, hk, -⟩ := (before.indexed i id).1 named
  rw [before.get?_fresh fresh (Entry.accepted_new acc).1] at hk
  cases hk

theorem enqueue_others (ok : q.enqueue j now = .ok (a, q')) {id : JobId} (other : id ≠ j.id) :
    q'.get? id = q.get? id := by
  cases enqueue_ok ok with
  | merged => rfl
  | takenIn => exact (get?_takeIn _ _ _).trans (if_neg other)

/-- Every stored job is kept unless the new one displaces another under its id. -/
theorem enqueue_keeps_iff (ok : q.enqueue j now = .ok (a, q')) :
    (∀ id k, q.get? id = some k → q'.get? id = some k) ↔
      a.accepted = false ∨ ∀ k, q.get? j.id = some k → k = takenIn now j := by
  have others := fun id (other : id ≠ j.id) => enqueue_others ok other
  cases enqueue_ok ok with
  | merged => exact ⟨fun _ => Or.inl rfl, fun _ _ _ stored => stored⟩
  | takenIn =>
    have new : (q.takeIn (takenIn now j)).get? j.id = some (takenIn now j) :=
      (get?_takeIn _ _ _).trans (if_pos rfl)
    constructor
    · exact fun kept => Or.inr fun k stored => Option.some.inj ((kept _ k stored).symm.trans new)
    · intro same id k stored
      by_cases own : id = j.id
      · subst own
        rw [same.resolve_left nofun k stored]
        exact new
      · rw [others id own]
        exact stored

/-- The caller is shown a job of the intent unless that intent's active job was displaced. -/
theorem Past.shown_iff (past : Past h q) (ok : q.enqueue j now = .ok (a, q')) :
    (∃ k, q'.get? a.jobId = some k ∧ k.intentId = j.intentId) ↔ ¬ Ousted h j.intentId := by
  have index := past.index j.intentId
  cases enqueue_ok ok with
  | @merged _ id _ _ named =>
    constructor
    · rintro ⟨k, stored, same⟩ ousted
      obtain ⟨id', named', others⟩ := index.2 ousted
      cases named.symm.trans named'
      exact others k stored same
    · intro spared
      obtain ⟨k, stored, same, -⟩ := index.1 spared id named
      exact ⟨k, stored, same⟩
  | takenIn _ _ free =>
    refine ⟨fun _ ousted => ?_, fun _ => ⟨_, (get?_takeIn _ _ _).trans (if_pos rfl), rfl⟩⟩
    obtain ⟨id, named, -⟩ := index.2 ousted
    rw [free] at named
    cases named

/-- In a run in which new jobs come under new ids, an enqueue does no harm. -/
theorem Run.enqueue_harmless (run : Run h q) (fresh : Fresh h (.enqueue j))
    (ok : q.enqueue j now = .ok (a, q')) :
    (∀ id k, q.get? id = some k → q'.get? id = some k) ∧
      ∃ k, q'.get? a.jobId = some k ∧ k.intentId = j.intentId := by
  refine ⟨(enqueue_keeps_iff ok).2 (Or.inr fun k stored => ?_),
    (run.past.shown_iff ok).2 (run.not_ousted _)⟩
  rw [run.get?_fresh fresh rfl] at stored
  cases stored

/-- Whatever ids the callers choose, an enqueue leaves all jobs alone but the one under the id of the
new job, and that one too unless a new job is taken in and differs from it. The job that the caller
is shown is one of the intent, unless that intent's active job was displaced by a new job under its
id some time ago. -/
theorem Past.enqueue_under_any_id (past : Past h q) (ok : q.enqueue j now = .ok (a, q')) :
    (∀ id, id ≠ j.id → q'.get? id = q.get? id) ∧
      ((∀ id k, q.get? id = some k → q'.get? id = some k) ↔
        a.accepted = false ∨ ∀ k, q.get? j.id = some k → k = takenIn now j) ∧
      ((∃ k, q'.get? a.jobId = some k ∧ k.intentId = j.intentId) ↔ ¬ Ousted h j.intentId) :=
  ⟨fun _ => enqueue_others ok, enqueue_keeps_iff ok, past.shown_iff ok⟩

end Past

/-- A job that waits. -/
def oneWaits : Queue := empty.afterAll [(.epoch, .enqueue (sampleJob 1 "post-1"))]

/-- A job of another intent has come in under its id. -/
def oneDisplaced : List (Timestamp × Call) :=
  [(.epoch, .enqueue (sampleJob 1 "post-1")), (.epoch, .enqueue (sampleJob 1 "post-2"))]

theorem enqueue_under_any_id_oneDisplaced : ∃ h q a q', Past h q ∧
    q.enqueue (sampleJob 2 "post-1") .epoch = .ok (a, q') ∧ a.accepted = false ∧
    ¬ ∃ k, q'.get? a.jobId = some k ∧ k.intentId = "post-1" := by
  have past : Past (entries empty oneDisplaced) (afterAll empty oneDisplaced) :=
    Past.nil.extend oneDisplaced
  have merged : (afterAll empty oneDisplaced).enqueue (sampleJob 2 "post-1") .epoch =
      .ok (.ofMerged ⟨.ofNat 1⟩ "post-1", afterAll empty oneDisplaced) := rfl
  have ousted : Ousted (entries empty oneDisplaced) "post-1" := by
    refine ⟨_, List.mem_cons_of_mem _ List.mem_cons_self, ⟨.ofNat 1⟩, ?_, ?_⟩ <;> decide +kernel
  exact ⟨_, _, _, _, past, merged, rfl,
    fun shown => (past.enqueue_under_any_id merged).2.2.1 shown ousted⟩

/-- So an enqueue can overwrite a job that waits, and work for the intent of that job is then merged
into the job of another. -/
theorem exists_enqueue_overwrites : oneWaits.Reached ∧
    (oneWaits.get? ⟨.ofNat 1⟩).map Job.intentId = some "post-1" ∧
    ∃ a q', oneWaits.enqueue (sampleJob 1 "post-2") .epoch = .ok (a, q') ∧ q'.Reached ∧
      (q'.get? ⟨.ofNat 1⟩).map Job.intentId = some "post-2" ∧
      ∃ b q'', q'.enqueue (sampleJob 2 "post-1") .epoch = .ok (b, q'') ∧
        (q''.get? b.jobId).map Job.intentId = some "post-2" := by
  have reached : (afterAll empty oneDisplaced).Reached := Reached.empty.afterAll _
  exact ⟨Reached.empty.afterAll _, by decide +kernel, _, afterAll empty oneDisplaced, rfl, reached,
    by decide +kernel, _, _, rfl, by decide +kernel⟩

end Courier.Queue
