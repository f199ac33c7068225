import Courier.Proofs.Queue.View

/-! Runs of a queue from empty: any calls, in any order, at any readings of the clock, whether they
succeed or fail. In a `Run`, new jobs come under ids that no job was accepted under before. -/

namespace Courier.Queue

/-- Queues that calls have led to, whether they succeeded or failed, whatever ids the callers
chose. -/
inductive Reached : Queue → Prop where
  | empty : Reached empty
  | call {q : Queue} (now : Timestamp) (c : Call) : Reached q → Reached (c.after now q)

theorem Reached.keyed {q : Queue} (h : q.Reached) : q.Keyed := by
  induction h with
  | empty => exact keyed_empty
  | call now c _ ih => exact c.after_keyed now ih

/-- One call of a run, with the queue that it found. -/
structure Entry where
  now : Timestamp
  call : Call
  before : Queue

namespace Entry

def answer (e : Entry) : Except Error Answer := e.call.answer e.now e.before

def after (e : Entry) : Queue := e.call.after e.now e.before

end Entry

/-- The id under which an answer says that a job was taken in. -/
def Answer.accepted? : Answer → Option JobId
  | .handle h => if h.accepted then some h.jobId else none
  | _ => none

def Entry.accepted? (e : Entry) : Option JobId :=
  match e.answer with
  | .ok a => a.accepted?
  | .error _ => none

/-- The ids of all jobs that were taken in. -/
def accepted (h : List Entry) : List JobId := h.filterMap Entry.accepted?

/-- The id that a call wants to use for a new job. -/
def Call.newId? : Call → Option JobId
  | enqueue j => some j.id
  | replay _ child => some child
  | _ => none

def Fresh (h : List Entry) (c : Call) : Prop := ∀ id, c.newId? = some id → id ∉ accepted h

inductive Run : List Entry → Queue → Prop where
  | nil : Run [] empty
  | snoc {h : List Entry} {q : Queue} (run : Run h q) (now : Timestamp) (c : Call)
      (fresh : Fresh h c) : Run (h ++ [⟨now, c, q⟩]) (c.after now q)

theorem accepted_snoc (h : List Entry) (e : Entry) :
    accepted (h ++ [e]) = accepted h ++ e.accepted?.toList := by
  unfold accepted
  rw [List.filterMap_append]
  cases he : e.accepted? <;> simp [he]

theorem accepted_mono {h : List Entry} {id : JobId} (hid : id ∈ accepted h) (e : Entry) :
    id ∈ accepted (h ++ [e]) := by
  rw [accepted_snoc]
  exact List.mem_append_left _ hid

theorem Run.keyed {h : List Entry} {q : Queue} (run : Run h q) : q.Keyed := by
  induction run with
  | nil => exact keyed_empty
  | snoc _ now c _ ih => exact c.after_keyed now ih

/-- The queue at any point of a run is itself the end of a run. -/
theorem Run.before {pre post : List Entry} {e : Entry} {q : Queue}
    (run : Run (pre ++ e :: post) q) : Run pre e.before ∧ Fresh pre e.call := by
  generalize hh : pre ++ e :: post = h at run
  induction run generalizing post with
  | nil => simp at hh
  | @snoc h q run now c fresh ih =>
    rcases List.eq_nil_or_concat post with rfl | ⟨post, e', rfl⟩
    · obtain ⟨rfl, he⟩ := List.append_inj' hh rfl
      cases he
      exact ⟨run, fresh⟩
    · rw [List.concat_eq_append, ← List.cons_append, ← List.append_assoc] at hh
      exact ih (List.append_inj' hh rfl).1

theorem stored_of_put {q : Queue} (hq : q.Keyed) {id id' : JobId} {j k k' : Job}
    (hk : q.get? id' = some k) (hj : (q.put k').get? id = some j) (hid : k'.id = k.id) :
    ∃ k, q.get? id = some k := by
  rw [get?_put] at hj
  split_ifs at hj with he
  · rw [he, hid, hq id' k hk]
    exact ⟨k, hk⟩
  · exact ⟨j, hj⟩

/-- A stored job was stored before, or is the one that was just taken in. -/
theorem Change.stored {now : Timestamp} {q q' : Queue} {c : Call} {a : Answer}
    (h : Change now q c a q') (hq : q.Keyed) {id : JobId} {j : Job} (hj : q'.get? id = some j) :
    (∃ k, q.get? id = some k) ∨ (c.newId? = some id ∧ a.accepted? = some id) := by
  cases h with
  | merged | replayedBefore => exact Or.inl ⟨j, hj⟩
  | takenIn =>
    rw [get?_takeIn] at hj
    split_ifs at hj with he
    · exact Or.inr (by rw [he]; exact ⟨rfl, rfl⟩)
    · exact Or.inl ⟨j, hj⟩
  | leased =>
    rcases get?_lease hq _ _ _ now id with ⟨k, hk, -⟩ | ⟨-, hget⟩
    · exact Or.inl ⟨k, hk⟩
    · exact Or.inl ⟨j, hget ▸ hj⟩
  | renewed hh | released hh => exact Or.inl (stored_of_put hq hh.1 hj rfl)
  | completed hh | buried hh =>
    rw [get?_settle] at hj
    exact Or.inl (stored_of_put hq hh.1 hj rfl)
  | reclaimed =>
    rw [get?_reclaim, Option.map_eq_some_iff] at hj
    obtain ⟨k, hk, -⟩ := hj
    exact Or.inl ⟨k, hk⟩
  | pruned =>
    rw [get?_prune, Option.filter_eq_some_iff] at hj
    exact Or.inl ⟨j, hj.1⟩
  | replayMerged hk | resolved hk => exact Or.inl (stored_of_put hq hk hj rfl)
  | replayed hk =>
    rw [get?_takeIn] at hj
    split_ifs at hj with he
    · exact Or.inr (by rw [he]; exact ⟨rfl, rfl⟩)
    · exact Or.inl (stored_of_put hq hk hj rfl)

theorem Run.stored_accepted {h : List Entry} {q : Queue} (run : Run h q) {id : JobId} {j : Job}
    (hj : q.get? id = some j) : id ∈ accepted h := by
  induction run generalizing id j with
  | nil => simp at hj
  | @snoc h q run now c _ ih =>
    rcases c.after_cases now q with ⟨_, -, hafter⟩ | ⟨a, hans, change⟩
    · exact accepted_mono (ih (hafter ▸ hj)) _
    · rcases change.stored run.keyed hj with ⟨k, hk⟩ | ⟨-, hnew⟩
      · exact accepted_mono (ih hk) _
      · rw [accepted_snoc]
        refine List.mem_append_right _ ?_
        simp [Entry.accepted?, Entry.answer, hans, hnew]

/-- An id for a new job is not in use. -/
theorem Run.get?_fresh {h : List Entry} {q : Queue} (run : Run h q) {c : Call} (fresh : Fresh h c)
    {id : JobId} (hid : c.newId? = some id) : q.get? id = none := by
  cases hj : q.get? id with
  | none => rfl
  | some j => exact absurd (run.stored_accepted hj) (fresh id hid)

instance (h : List Entry) (c : Call) : Decidable (Fresh h c) :=
  decidable_of_iff (c.newId?.all fun id => !(accepted h).contains id) <| by
    unfold Fresh
    cases c.newId? <;> simp

/-- The entries that calls make one after another from `q` on. -/
def entries (q : Queue) : List (Timestamp × Call) → List Entry
  | [] => []
  | (now, c) :: rest => ⟨now, c, q⟩ :: entries (c.after now q) rest

/-- The queue that they leave. -/
def afterAll (q : Queue) : List (Timestamp × Call) → Queue
  | [] => q
  | (now, c) :: rest => afterAll (c.after now q) rest

theorem Reached.afterAll {q : Queue} (h : q.Reached) (steps : List (Timestamp × Call)) :
    (q.afterAll steps).Reached := by
  induction steps generalizing q with
  | nil => exact h
  | cons s rest ih => exact ih (h.call s.1 s.2)

/-- Every one of them is fresh after those before it and after `h`. -/
def AllFresh (h : List Entry) (q : Queue) : List (Timestamp × Call) → Prop
  | [] => True
  | (now, c) :: rest => Fresh h c ∧ AllFresh (h ++ [⟨now, c, q⟩]) (c.after now q) rest

instance decidableAllFresh (h : List Entry) (q : Queue) :
    (steps : List (Timestamp × Call)) → Decidable (AllFresh h q steps)
  | [] => isTrue trivial
  | (now, c) :: rest =>
    @instDecidableAnd _ _ _ (decidableAllFresh (h ++ [⟨now, c, q⟩]) (c.after now q) rest)

theorem Run.extend {h : List Entry} {q : Queue} (run : Run h q) {steps : List (Timestamp × Call)}
    (fresh : AllFresh h q steps) : Run (h ++ entries q steps) (afterAll q steps) := by
  induction steps generalizing h q with
  | nil => simpa [entries, afterAll] using run
  | cons s rest ih =>
    obtain ⟨now, c⟩ := s
    have := ih (run.snoc now c fresh.1) fresh.2
    rwa [List.append_assoc] at this

/-- Calls that are all fresh make a run. -/
theorem run_entries {steps : List (Timestamp × Call)} (fresh : AllFresh [] empty steps) :
    Run (entries empty steps) (afterAll empty steps) := Run.nil.extend fresh

/-- A job to show runs with. -/
def sampleJob (number : Nat) (intentId : String) : Job :=
  .create ⟨.ofNat number⟩ ⟨intentId, "x", "account", "post", .null, none⟩ .epoch

end Courier.Queue
