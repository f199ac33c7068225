import Courier.Proofs.Solo.Custody
import Courier.Proofs.Solo.Ledger

/-! A plan that has the stores to itself. Whatever else happens in the meantime, nobody but the
plan touches them, and they are in memory. What it finds there is laid out on a desk: the stored
job, the log of attempts, the inbox, and what the log and the adapter have answered so far. What a
plan comes to can then be worked out on the desk alone. -/

namespace Courier

namespace Deed

/-- The materializer crashed. -/
def isCrash : Deed → Bool
  | ⟨.materialize _, .crashed⟩ => true
  | _ => false

/-- What the log of attempts said. -/
def beginning? : Deed → Option Beginning
  | ⟨.beginAttempt _, .ok b⟩ => some b
  | _ => none

/-- What came of a call of the adapter. -/
def adapterReply? : Deed → Option AdapterReply
  | ⟨.callAdapter _, r⟩ => some r
  | _ => none

end Deed

namespace Engine

variable {e e' : Engine}

/-- Nobody has touched the stores, and they are where they were. All else may have changed: the
clock, the gates, the world outside. -/
structure Meanwhile (e e' : Engine) : Prop where
  stores : KeptBut none e e'
  unreachable : e'.unreachable = e.unreachable
  faults : e'.surroundings.faults = e.surroundings.faults

theorem Meanwhile.refl (e : Engine) : Meanwhile e e := ⟨.refl _ _, rfl, rfl⟩

theorem Meanwhile.trans {e'' : Engine} (h : Meanwhile e e') (h' : Meanwhile e' e'') :
    Meanwhile e e'' :=
  ⟨h.stores.trans h'.stores, h'.unreachable.trans h.unreachable, h'.faults.trans h.faults⟩

theorem Meanwhile.inMemory (h : Meanwhile e e') (inMemory : e.InMemory) : e'.InMemory :=
  ⟨h.unreachable.trans inMemory.1, h.faults.trans inMemory.2⟩

theorem Meanwhile.keyed (h : Meanwhile e e') (hq : e.queue.Keyed) : e'.queue.Keyed :=
  h.stores.queue nofun ▸ hq

theorem InMemory.afterCall {γ : Type} {c : StoreCall} {offline : Except Error γ}
    {body : Engine → Except Error γ × Engine} {r : Except Failure γ} (h : e.InMemory)
    (done : replied (e.call c offline body) = .reply r e') (kept : (body e).2.InMemory) :
    e'.InMemory := (h.result done).2 ▸ kept

theorem InMemory.onQueue {γ : Type} (h : e.InMemory) (f : Queue → Except Error (γ × Queue)) :
    (e.onQueue f).2.InMemory := by
  unfold Engine.onQueue
  split <;> exact h

theorem InMemory.restartDead_go (h : e.InMemory) (slots : List Slot) :
    (restartDead.go slots e).2.2.InMemory := by
  induction slots generalizing e with
  | nil => exact h
  | cons s rest ih =>
    unfold Engine.restartDead.go
    split_ifs
    · exact @ih (e.spawn (.worker s.worker)).2 h
    · exact ih h

/-- No answer takes a store out of memory. -/
theorem Answers.inMemory {a : Action} {r : a.Reply} (h : e.Answers a r e')
    (inMemory : e.InMemory) : e'.InMemory := by
  rcases h with ⟨-, rfl⟩ | ⟨own, done⟩
  · exact inMemory
  cases a with
  | drawUnit | materialize | callAdapter => cases own
  | renewLease | completeJob | releaseJob | deadLetterJob =>
    exact inMemory.afterCall done (inMemory.onQueue _)
  | leaseJobs | reclaimJobs | pruneJobs | beginAttempt | completeAttempt | clearAttempt
  | appendEnvelope | leaseEnvelopes | reclaimEnvelopes | pruneEnvelopes | beat | lastBeat =>
    exact inMemory.afterCall done inMemory
  | ackEnvelope =>
    refine inMemory.afterCall done ?_
    split <;> exact inMemory
  | applyEnvelope =>
    cases done
    have same : e.surroundings.takeProducer.2.faults = e.surroundings.faults := by
      unfold Surroundings.takeProducer
      split <;> rfl
    unfold applyEnvelope
    dsimp only
    split_ifs <;> exact ⟨inMemory.1, same.trans inMemory.2⟩
  | restartDead =>
    cases done
    unfold restartDead
    split_ifs
    · exact inMemory
    · exact inMemory.restartDead_go e.slots
  | pause | pauseForEnvelope | join | sleep => cases done
  | _ =>
    cases done
    exact inMemory

end Engine

namespace Plan

variable {α : Type}

/-- How far a plan has got from `e` on with the stores to itself: what it did, the engine, and what
is left of it. The world outside answers as it likes and takes its time. -/
inductive Alone (p : Plan α) (e : Engine) : List Deed → Engine → Plan α → Prop where
  | start {e₁ : Engine} : e.Meanwhile e₁ → Alone p e [] e₁ p
  | act {past : List Deed} {e₁ e₂ e₃ : Engine} {a : Action} {next : a.Reply → Plan α} {r : a.Reply} :
      Alone p e past e₁ (.step a next) → e₁.Answers a r e₂ → e₂.Meanwhile e₃ →
      Alone p e (past ++ [⟨a, r⟩]) e₃ (next r)

end Plan

/-- What the stores hold about one job, and what the log of attempts and the adapter have said. -/
structure Desk where
  job : Option Job
  attempts : AttemptLog
  inbox : Inbox
  begun : List Beginning
  replies : List AdapterReply

def Engine.desk (id : JobId) (past : List Deed) (e : Engine) : Desk where
  job := e.queue.get? id
  attempts := e.attempts
  inbox := e.inbox
  begun := past.filterMap Deed.beginning?
  replies := past.filterMap Deed.adapterReply?

/-- `worker` holds the job, stored as `k`. -/
def Desk.Holds (worker : String) (k : Job) (w : Desk) : Prop :=
  w.job = some k ∧ k.state = .leased ∧ k.leasedBy = some worker

/-- Actions that touch no store, and that neither the adapter answers nor anybody waits for. -/
def Action.isAside : Action → Bool
  | .readClock | .emit _ | .requestPassage _ | .cancelTrial _ | .circuitSuccess _
  | .circuitFailure _ | .requestRoom _ _ | .refundRoom _ _ | .pacingWait _ _ _ | .pacingSend _ _
  | .pacingSuccess _ | .pacingFailure _ _ | .drawUnit | .materialize _ | .wakeDispatcher => true
  | _ => false

namespace Engine

variable {e e' : Engine} {id : JobId} {past : List Deed}

theorem Meanwhile.desk (h : Meanwhile e e') : e'.desk id past = e.desk id past := by
  simp only [Engine.desk, h.stores.queue nofun, h.stores.inbox nofun, h.stores.attempts nofun]

/-- Such actions are answered. -/
theorem exists_answers_aside {a : Action} (aside : a.isAside = true) (e : Engine) :
    ∃ r e', e.Answers a r e' ∧ Deed.isCrash ⟨a, r⟩ = false := by
  cases a with
  | drawUnit => exact ⟨middleUnit, e, Or.inl ⟨rfl, rfl⟩, rfl⟩
  | materialize i => exact ⟨.noMaterializer, e, Or.inl ⟨rfl, rfl⟩, rfl⟩
  | _ => first | cases aside; done | exact ⟨_, _, Or.inr ⟨rfl, rfl⟩, rfl⟩

namespace Answers

variable {a : Action} {r : a.Reply}

/-- And they leave the desk as it is. -/
theorem desk_aside (h : e.Answers a r e') (aside : a.isAside = true) :
    e'.desk id (past ++ [⟨a, r⟩]) = e.desk id past := by
  have store : a.store? = none := by
    cases a <;> first | rfl | cases aside
  have said : Deed.beginning? ⟨a, r⟩ = none ∧ Deed.adapterReply? ⟨a, r⟩ = none := by
    cases a <;> first | exact ⟨rfl, rfl⟩ | cases aside
  have kept := store ▸ h.kept
  simp [Engine.desk, kept.queue nofun, kept.inbox nofun, kept.attempts nofun, said.1, said.2]

/-- A call of the queue changes the job only. -/
theorem desk_queue (h : e.Answers a r e') (store : a.store? = some .queue) {k : Job}
    (stored : e'.queue.get? id = some k) :
    e'.desk id (past ++ [⟨a, r⟩]) = { e.desk id past with job := some k } := by
  have said : Deed.beginning? ⟨a, r⟩ = none ∧ Deed.adapterReply? ⟨a, r⟩ = none := by
    cases a <;> first | exact ⟨rfl, rfl⟩ | cases store
  have kept := store ▸ h.kept
  simp [Engine.desk, kept.inbox nofun, kept.attempts nofun, said.1, said.2, stored]

/-- A call of the log of attempts changes the log, and may leave an answer. -/
theorem desk_attempts (id : JobId) (past : List Deed) (h : e.Answers a r e')
    (store : a.store? = some .attempts) :
    e'.desk id (past ++ [⟨a, r⟩]) =
      { e.desk id past with
        attempts := e'.attempts
        begun := (e.desk id past).begun ++ (Deed.beginning? ⟨a, r⟩).toList } := by
  have said : Deed.adapterReply? ⟨a, r⟩ = none := by
    cases a <;> first | rfl | cases store
  have kept := store ▸ h.kept
  cases hb : Deed.beginning? ⟨a, r⟩ <;>
    simp [Engine.desk, kept.inbox nofun, kept.queue nofun, said, hb]

end Answers

end Engine

namespace Plan

variable {α : Type} {id : JobId} {worker : String} {post : Desk → α → Prop} {w : Desk} {k : Job}

/-- A plan that starts from such a desk never waits for anybody, and ends as `post` says, whatever
is answered from outside. -/
def Yields (id : JobId) (post : Desk → α → Prop) : Desk → Plan α → Prop
  | w, done a => post w a
  | w, step a next => ∀ (past : List Deed) (e : Engine),
      e.InMemory → e.queue.Keyed → e.desk id past = w →
      (∃ r e', e.Answers a r e' ∧ Deed.isCrash ⟨a, r⟩ = false) ∧
      ∀ r e', e.Answers a r e' → Deed.isCrash ⟨a, r⟩ = false →
        (next r).Yields id post (e'.desk id (past ++ [⟨a, r⟩]))

/-- What is true of the desk is true of every course that the plan takes alone. -/
theorem Alone.yields {p q : Plan α} {e e₁ : Engine} {past : List Deed}
    (alone : Alone p e past e₁ q) (inMemory : e.InMemory) (hq : e.queue.Keyed)
    (calm : ∀ d ∈ past, d.isCrash = false) (h : p.Yields id post (e.desk id [])) :
    e₁.InMemory ∧ e₁.queue.Keyed ∧ q.Yields id post (e₁.desk id past) := by
  -- By induction on the course: every call it has made is one step down the plan, and what goes on
  -- between two calls leaves the desk as it was.
  induction alone with
  | start meanwhile =>
    exact ⟨meanwhile.inMemory inMemory, meanwhile.keyed hq, meanwhile.desk ▸ h⟩
  | act _ answers meanwhile ih =>
    obtain ⟨inMemory₁, hq₁, onward⟩ := ih fun d hd => calm d (List.mem_append_left _ hd)
    have calm := calm _ (List.mem_append_right _ (List.mem_singleton_self _))
    have next := (onward _ _ inMemory₁ hq₁ rfl).2 _ _ answers calm
    exact ⟨meanwhile.inMemory (answers.inMemory inMemory₁),
      meanwhile.keyed (answers.made.keyed hq₁), meanwhile.desk ▸ next⟩

/-- And from wherever it has got to, the plan comes to an end. -/
theorem Alone.completes {p q : Plan α} {e e₁ : Engine} {past : List Deed}
    (alone : Alone p e past e₁ q) (inMemory : e₁.InMemory) (hq : e₁.queue.Keyed)
    (h : q.Yields id post (e₁.desk id past)) : ∃ more e₂ a,
      Alone p e (past ++ more) e₂ (.done a) ∧ post (e₂.desk id (past ++ more)) a := by
  -- By induction on what is left of the plan, taking for each call the answer that is not a crash.
  induction q generalizing past e₁ with
  | done a => exact ⟨[], e₁, a, by rwa [List.append_nil], by rwa [List.append_nil]⟩
  | step a next ih =>
    obtain ⟨⟨r, e₂, answers, calm⟩, onward⟩ := h past e₁ inMemory hq rfl
    obtain ⟨more, e₃, b, ended, hb⟩ := ih r (alone.act answers (.refl e₂))
      (answers.inMemory inMemory) (answers.made.keyed hq) (onward r e₂ answers calm)
    rw [List.append_assoc] at ended hb
    exact ⟨_, e₃, b, ended, hb⟩

theorem yields_aside {a : Action} {next : a.Reply → Plan α} (aside : a.isAside = true)
    (onward : ∀ r, Deed.isCrash ⟨a, r⟩ = false → (next r).Yields id post w) :
    (step a next).Yields id post w := by
  rintro past e - - rfl
  exact ⟨e.exists_answers_aside aside, fun r e' h calm => h.desk_aside aside ▸ onward r calm⟩

/-- Whoever holds a job is refused nothing. -/
theorem yields_renewLease {visibility : Span} {next : Except Failure Timestamp → Plan α}
    (held : w.Holds worker k) (onward : ∀ until_ now, (next (.ok until_)).Yields id post
      { w with job := some (Queue.renewed until_ now k) }) :
    (step (.renewLease id worker visibility) next).Yields id post w := by
  rintro past e inMemory hq rfl
  refine ⟨⟨_, _, Or.inr ⟨rfl, rfl⟩, rfl⟩, fun r e' h _ => ?_⟩
  obtain ⟨until_, rfl, stored⟩ := h.renewed inMemory hq held
  exact h.desk_queue rfl stored ▸ onward until_ e.now

theorem yields_releaseJob {availableAt : Timestamp} {reason : String} {refund : Bool}
    {next : Except Failure Unit → Plan α} (held : w.Holds worker k)
    (onward : ∀ now, (next (.ok ())).Yields id post
      { w with job := some (Queue.released availableAt reason refund now k) }) :
    (step (.releaseJob id worker availableAt reason refund) next).Yields id post w := by
  rintro past e inMemory hq rfl
  refine ⟨⟨_, _, Or.inr ⟨rfl, rfl⟩, rfl⟩, fun r e' h _ => ?_⟩
  obtain ⟨rfl, stored⟩ := h.released inMemory hq held
  exact h.desk_queue rfl stored ▸ onward e.now

theorem yields_completeJob {next : Except Failure Unit → Plan α} (held : w.Holds worker k)
    (onward : ∀ now, (next (.ok ())).Yields id post
      { w with job := some (Queue.completed now k) }) :
    (step (.completeJob id worker) next).Yields id post w := by
  rintro past e inMemory hq rfl
  refine ⟨⟨_, _, Or.inr ⟨rfl, rfl⟩, rfl⟩, fun r e' h _ => ?_⟩
  obtain ⟨rfl, stored⟩ := h.completed inMemory hq held
  exact h.desk_queue rfl stored ▸ onward e.now

theorem yields_deadLetterJob {entry : DlqState} {reason : String}
    {next : Except Failure Unit → Plan α} (held : w.Holds worker k)
    (onward : ∀ now, (next (.ok ())).Yields id post
      { w with job := some (Queue.buried entry reason now k) }) :
    (step (.deadLetterJob id worker entry reason) next).Yields id post w := by
  rintro past e inMemory hq rfl
  refine ⟨⟨_, _, Or.inr ⟨rfl, rfl⟩, rfl⟩, fun r e' h _ => ?_⟩
  obtain ⟨rfl, stored⟩ := h.buried inMemory hq held
  exact h.desk_queue rfl stored ▸ onward e.now

/-- The log of attempts lets the first one go ahead, and tells of an earlier one. -/
theorem yields_beginAttempt {key : String} {next : Except Failure Beginning → Plan α}
    (first : Table.get? w.attempts key = none → ∀ now, (next (.ok .first)).Yields id post
      { w with
        attempts := Table.insert key ⟨key, .inProgress, now, .null⟩ w.attempts
        begun := w.begun ++ [.first] })
    (again : ∀ record b, Table.get? w.attempts key = some record →
      (record.state = .done ∧ b = .done record ∨
        record.state = .inProgress ∧ ∃ stale, b = .underWay stale record.updatedAt) →
      (next (.ok b)).Yields id post { w with begun := w.begun ++ [b] }) :
    (step (.beginAttempt key) next).Yields id post w := by
  rintro past e inMemory hq rfl
  refine ⟨⟨_, _, Or.inr ⟨rfl, rfl⟩, rfl⟩, fun r e' h _ => ?_⟩
  have desk := h.desk_attempts id past rfl
  obtain ⟨rfl, rfl⟩ := inMemory.result (h.performed rfl)
  rw [desk]
  unfold AttemptLog.begin
  cases hr : Table.get? e.attempts key with
  | none => exact first hr e.now
  | some record =>
    cases hs : record.state with
    | done =>
      simp only [hs]
      exact again record _ hr (Or.inl ⟨hs, rfl⟩)
    | inProgress =>
      simp only [hs]
      exact again record _ hr (Or.inr ⟨hs, _, rfl⟩)

theorem yields_completeAttempt {key : String} {metadata : Json}
    {next : Except Failure Unit → Plan α} (onward : ∀ now, (next (.ok ())).Yields id post
      { w with attempts := AttemptLog.complete key metadata now w.attempts }) :
    (step (.completeAttempt key metadata) next).Yields id post w := by
  rintro past e inMemory hq rfl
  refine ⟨⟨_, _, Or.inr ⟨rfl, rfl⟩, rfl⟩, fun r e' h _ => ?_⟩
  have desk := h.desk_attempts id past rfl
  obtain ⟨rfl, rfl⟩ := inMemory.result (h.performed rfl)
  rw [desk]
  simp only [Deed.beginning?, Option.toList_none, List.append_nil]
  exact onward e.now

theorem yields_clearAttempt {key : String} {next : Except Failure Unit → Plan α}
    (onward : (next (.ok ())).Yields id post
      { w with attempts := AttemptLog.clear key w.attempts }) :
    (step (.clearAttempt key) next).Yields id post w := by
  rintro past e inMemory hq rfl
  refine ⟨⟨_, _, Or.inr ⟨rfl, rfl⟩, rfl⟩, fun r e' h _ => ?_⟩
  have desk := h.desk_attempts id past rfl
  obtain ⟨rfl, rfl⟩ := inMemory.result (h.performed rfl)
  rw [desk]
  simp only [Deed.beginning?, Option.toList_none, List.append_nil]
  exact onward

/-- An append leaves one record for the job, whether or not it brought it. -/
theorem yields_appendEnvelope {x : Envelope} {next : Except Failure Bool → Plan α}
    (sound : w.inbox.Sound) (onward : ∀ isNew inbox, inbox.recordsFor x.jobId = 1 →
      (next (.ok isNew)).Yields id post { w with inbox := inbox }) :
    (step (.appendEnvelope x) next).Yields id post w := by
  rintro past e inMemory hq rfl
  refine ⟨⟨_, _, Or.inr ⟨rfl, rfl⟩, rfl⟩, fun r e' h _ => ?_⟩
  have kept := h.kept
  obtain ⟨rfl, inbox, -⟩ := h.appended inMemory
  have desk : e'.desk id (past ++ [⟨.appendEnvelope x, .ok (e.inbox.append ⟨e.ids.next⟩ x).1⟩]) =
      { e.desk id past with inbox := (e.inbox.append ⟨e.ids.next⟩ x).2 } := by
    simp [Engine.desk, kept.queue nofun, kept.attempts nofun, inbox, Deed.beginning?,
      Deed.adapterReply?]
  rw [desk]
  exact onward _ _ (sound.recordsFor_append _ x)

theorem yields_callAdapter {i : Intent} {next : AdapterReply → Plan α}
    (onward : ∀ r, (next r).Yields id post { w with replies := w.replies ++ [r] }) :
    (step (.callAdapter i) next).Yields id post w := by
  rintro past e inMemory hq rfl
  refine ⟨⟨.noAdapter, e, Or.inl ⟨rfl, rfl⟩, rfl⟩, fun r e' h _ => ?_⟩
  have kept := h.kept
  have desk : e'.desk id (past ++ [⟨.callAdapter i, r⟩]) =
      { e.desk id past with replies := (e.desk id past).replies ++ [r] } := by
    simp [Engine.desk, kept.queue nofun, kept.attempts nofun, kept.inbox nofun, Deed.beginning?,
      Deed.adapterReply?]
  rw [desk]
  exact onward r

end Plan

end Courier
