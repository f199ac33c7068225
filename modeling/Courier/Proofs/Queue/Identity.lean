import Courier.Proofs.Queue.Lineage

/-! What a job is accepted with. Its terms stay as they are for as long as it is stored, whatever is
done with it, and a replay hands the work on, so that the last job of a chain of replays still has
the work of the first. -/

namespace Courier

/-- What is to be done, and how. -/
structure Job.Work where
  intent : Intent
  contextKey : String
  reservation : Reservation
  priority : Float
  maxAttempts : Nat

/-- What is settled about a job when it is accepted. -/
structure Job.Terms extends Job.Work where
  id : JobId
  createdAt : Timestamp
  version : Nat
  parent : Option JobId

def Job.work (j : Job) : Job.Work :=
  ⟨j.intent, j.contextKey, j.reservation, j.priority, j.maxAttempts⟩

def Job.terms (j : Job) : Job.Terms := ⟨j.work, j.id, j.createdAt, j.version, j.parent⟩

theorem Job.work_of_terms {j k : Job} (h : j.terms = k.terms) : j.work = k.work :=
  congrArg Job.Terms.toWork h

theorem Job.id_of_terms {j k : Job} (h : j.terms = k.terms) : j.id = k.id :=
  congrArg Job.Terms.id h

@[simp] theorem Job.work_replayChild (j : Job) (id : JobId) (now : Timestamp) :
    (j.replayChild id now).work = j.work := rfl

namespace Queue

@[simp] theorem terms_takenIn (now : Timestamp) (j : Job) : (takenIn now j).terms = j.terms := rfl

@[simp] theorem terms_leaseTo (worker : String) (until_ now : Timestamp) (j : Job) :
    (leaseTo worker until_ now j).terms = j.terms := rfl

/-- Whatever becomes of a job, its terms stay. -/
theorem Fate.terms {now : Timestamp} {id : JobId} {j k : Job} {c : Call} {a : Answer}
    (h : Fate now id j c a (some k)) : k.terms = j.terms := by
  generalize ho : some k = o at h
  cases h with
  | pruned => cases ho
  | _ =>
    cases ho
    rfl

/-- The job was taken in as `c`, enqueued or as the child of a replay. -/
def Accepts (h : List Entry) (c : Job) : Prop := ∃ e ∈ h, e.Creates c

/-- `c` comes from `first` by replays: `first` was enqueued, and each of the others is the child by
which the one before it was replayed. -/
inductive Chain (h : List Entry) : Job → Job → Prop where
  | enqueued {e : Entry} {c j : Job} : e ∈ h → e.Creates c → e.call = .enqueue j → Chain h c c
  | replayed {e : Entry} {first p c : Job} : Chain h first p → e ∈ h → e.Creates c →
      e.call = .replay p.id c.id → Chain h first c

variable {h h' : List Entry} {q : Queue} {e : Entry} {c c' j k first : Job} {id : JobId}

theorem Accepts.mono (acc : Accepts h c) (sub : h ⊆ h') : Accepts h' c := by
  obtain ⟨e, he, created⟩ := acc
  exact ⟨e, sub he, created⟩

theorem Chain.mono (chain : Chain h first c) (sub : h ⊆ h') : Chain h' first c := by
  induction chain with
  | enqueued he created call => exact .enqueued (sub he) created call
  | replayed _ he created call ih => exact .replayed ih (sub he) created call

theorem Accepts.of_snoc (acc : Accepts (h ++ [e]) c) : Accepts h c ∨ e.Creates c := by
  obtain ⟨d, hd, created⟩ := acc
  rcases List.mem_append.1 hd with hd | hd
  · exact Or.inl ⟨d, hd, created⟩
  · exact Or.inr (List.mem_singleton.1 hd ▸ created)

/-- What is accepted counts as such ever after. -/
theorem Run.accepts_accepted (run : Run h q) (acc : Accepts h c) : c.id ∈ accepted h := by
  obtain ⟨e, he, created⟩ := acc
  obtain ⟨pre, post, rfl⟩ := List.append_of_mem he
  rw [List.append_cons, accepted, List.filterMap_append]
  exact List.mem_append_left _ (run.upTo.stored_accepted created.2)

/-- A new job comes under an id that no job was accepted under before. -/
theorem Run.not_accepts (run : Run (h ++ [e]) q) (created : e.Creates c) (acc : Accepts h c') :
    c'.id ≠ c.id := by
  intro same
  obtain ⟨before, fresh, -⟩ := run.of_snoc
  exact fresh c.id (created.newId before.keyed) (same ▸ before.accepts_accepted acc)

/-- No two jobs are accepted under one id. -/
theorem Run.accepts_unique (run : Run h q) (acc : Accepts h c) (acc' : Accepts h c')
    (same : c'.id = c.id) : c' = c := by
  induction h using List.reverseRecOn generalizing q with
  | nil =>
    obtain ⟨e, he, -⟩ := acc
    cases he
  | append_singleton h e ih =>
    have before := run.of_snoc.1
    rcases acc.of_snoc with old | new
    · rcases acc'.of_snoc with old' | new'
      · exact ih before old old'
      · exact absurd same.symm (run.not_accepts new' old)
    · rcases acc'.of_snoc with old' | new'
      · exact absurd same (run.not_accepts new old')
      · exact new.unique new' before.keyed

/-- Every stored job was accepted, with the terms that it has. -/
theorem Run.exists_accepts (run : Run h q) (stored : q.get? id = some k) :
    ∃ c, Accepts h c ∧ k.terms = c.terms := by
  induction h using List.reverseRecOn generalizing q k with
  | nil =>
    rw [run.unique .nil] at stored
    simp at stored
  | append_singleton h e ih =>
    obtain ⟨before, fresh, rfl⟩ := run.of_snoc
    have old : ∀ j, e.before.get? id = some j → k.terms = j.terms →
        ∃ c, Accepts (h ++ [e]) c ∧ k.terms = c.terms := by
      intro j hj same
      obtain ⟨c, acc, terms⟩ := ih before hj
      exact ⟨c, acc.mono (List.subset_append_left _ _), same.trans terms⟩
    cases hj : e.before.get? id with
    | none =>
      have hid : k.id = id := (run.keyed) id k stored
      subst hid
      exact ⟨k, ⟨e, by simp, hj, stored⟩, rfl⟩
    | some j =>
      refine old j hj ?_
      rcases e.call.after_cases e.now e.before with ⟨_, -, same⟩ | ⟨a, -, change⟩
      · rw [Entry.after, same, hj] at stored
        rw [Option.some.inj stored]
      · have notNew : e.call.newId? ≠ some id := fun hid => by
          rw [before.get?_fresh fresh hid] at hj
          cases hj
        have fate := change.fate before.keyed hj notNew
        rw [show e.call.after e.now e.before = e.after from rfl, stored] at fate
        exact fate.terms

/-- A job is accepted as it was enqueued, but for what the queue itself is to fill in, or it is the
child of a stored job that is replayed. -/
theorem Run.accepted_as (run : Run (h ++ [e]) q) (created : e.Creates c) :
    (∃ j, e.call = .enqueue j ∧ c.terms = j.terms) ∨
      ∃ p, e.before.get? p.id = some p ∧ e.call = .replay p.id c.id ∧ c.work = p.work := by
  have keyed := run.of_snoc.1.keyed
  rcases e.call.after_cases e.now e.before with ⟨_, -, same⟩ | ⟨a, -, change⟩
  · have := created.2
    rw [Entry.after, same, created.1] at this
    cases this
  · rcases change.creates keyed created.1 created.2 with
      ⟨j, hc, rfl⟩ | ⟨parent, p, hc, hp, -, -, hj, -⟩
    · exact Or.inl ⟨j, hc, rfl⟩
    · have hid := keyed parent p hp
      subst hid
      refine Or.inr ⟨p, hp, hc, ?_⟩
      rw [hj]
      rfl

/-- Every job that is accepted comes from one that was enqueued. -/
theorem Run.exists_chain (run : Run h q) (acc : Accepts h c) : ∃ first, Chain h first c := by
  induction h using List.reverseRecOn generalizing q c with
  | nil =>
    obtain ⟨e, he, -⟩ := acc
    cases he
  | append_singleton h e ih =>
    have sub : h ⊆ h ++ [e] := List.subset_append_left _ _
    have last : e ∈ h ++ [e] := by simp
    have before := run.of_snoc.1
    rcases acc.of_snoc with old | new
    · obtain ⟨first, chain⟩ := ih before old
      exact ⟨first, chain.mono sub⟩
    · rcases run.accepted_as new with ⟨j, call, -⟩ | ⟨p, hp, call, -⟩
      · exact ⟨c, .enqueued last new call⟩
      · obtain ⟨p', acc', terms⟩ := before.exists_accepts hp
        obtain ⟨first, chain⟩ := ih before acc'
        rw [Job.id_of_terms terms] at call
        exact ⟨first, .replayed (chain.mono sub) last new call⟩

theorem Chain.accepts (chain : Chain h first c) : Accepts h c := by
  cases chain with
  | enqueued he created => exact ⟨_, he, created⟩
  | replayed _ he created => exact ⟨_, he, created⟩

/-- The work of a job is that of the job first enqueued in its chain. -/
theorem Run.work_of_chain (run : Run h q) (chain : Chain h first c) : c.work = first.work := by
  induction chain with
  | enqueued => rfl
  | @replayed e first p c chain he created call ih =>
    rw [← ih]
    obtain ⟨pre, post, rfl⟩ := List.append_of_mem he
    rcases run.upTo.accepted_as created with ⟨j, call', -⟩ | ⟨p', hp', call', work⟩
    · rw [call] at call'
      cases call'
    · -- the call says which job is replayed, and only one was accepted under that id
      have same : p'.id = p.id := by
        rw [call] at call'
        injection call' with hid
        exact hid.symm
      obtain ⟨p'', acc, terms⟩ := run.before.1.exists_accepts hp'
      have sub : pre ⊆ pre ++ e :: post := List.subset_append_left _ _
      have hp : p'' = p := run.accepts_unique chain.accepts (acc.mono sub)
        ((Job.id_of_terms terms).symm.trans same)
      rw [work, Job.work_of_terms terms, hp]

/-- The worker was handed the job by a lease. -/
def Handed (h : List Entry) (worker : String) (j : Job) : Prop :=
  ∃ e ∈ h, ∃ batch visibility js, e.call = .lease worker batch visibility ∧
    e.answer = .ok (.jobs js) ∧ j ∈ js

/-- A job that was handed out has the terms of one that was accepted. -/
theorem Run.exists_accepts_of_handed (run : Run h q) {worker : String}
    (handed : Handed h worker j) : ∃ c, Accepts h c ∧ j.terms = c.terms := by
  obtain ⟨e, he, batch, visibility, js, call, answer, hj⟩ := handed
  obtain ⟨pre, post, rfl⟩ := List.append_of_mem he
  rw [Entry.answer, call] at answer
  cases answer
  obtain ⟨k, hk, -, same⟩ := mem_lease run.before.1.keyed hj
  obtain ⟨c, acc, terms⟩ := run.before.1.exists_accepts hk
  refine ⟨c, acc.mono (List.subset_append_left _ _), ?_⟩
  rw [same, terms_leaseTo, terms]

end Queue

end Courier
