import Courier.Proofs.Fleet.Settlement
import Courier.Proofs.Fleet.Turn
import Courier.Proofs.Queue.Fate

/-! Which jobs that have ended have an envelope. The queue is told first and the inbox afterwards,
so an errand that is cut off in between leaves a job that has ended without one, and nobody comes
back to it. -/

namespace Courier

/-- Whether the inbox took the envelope that a deed sent. -/
def Deed.sent? : Deed → Option Bool
  | ⟨.appendEnvelope _, .ok _⟩ => some true
  | ⟨.appendEnvelope _, .error _⟩ => some false
  | _ => none

/-- How a deed moves the duty of an errand for job `id` that keeps the settlement. -/
inductive DutyMove (id : JobId) : Duty → Deed → Duty → Prop where
  | kept {s : Duty} {d : Deed} : d.ended? = none → d.sent? = none → DutyMove id s d s
  | ended {d : Deed} : d.ended? = some id → d.sent? = none → DutyMove id .nothing d .envelope
  | paid {s : Duty} {x : Envelope} {isNew : Bool} : x.jobId = id → s = .nothing ∨ s = .envelope →
      DutyMove id s ⟨.appendEnvelope x, .ok isNew⟩ .paid
  | refused {s : Duty} {x : Envelope} {f : Failure} : x.jobId = id →
      s = .nothing ∨ s = .envelope → DutyMove id s ⟨.appendEnvelope x, .error f⟩ .refused

theorem settlement_move {id : JobId} {s : Duty} {a : Action} (h : (settlement id).allows s a)
    (r : a.Reply) : DutyMove id s ⟨a, r⟩ ((settlement id).after s ⟨a, r⟩) := by
  cases a with
  | completeJob | deadLetterJob =>
    obtain ⟨rfl, rfl⟩ := h
    cases r with
    | error => exact .kept rfl rfl
    | ok => exact .ended rfl rfl
  | appendEnvelope x =>
    cases r with
    | error => exact .refused h.1 h.2
    | ok => exact .paid h.1 h.2
  | _ => exact .kept rfl rfl

/-- What the past of an errand for job `id` says of its duty. -/
structure Booked (id : JobId) (past : List Deed) (s : Duty) : Prop where
  own : ∀ d ∈ past, ∀ i, d.ended? = some i ∨ d.stored? = some i → i = id
  ended : (∃ d ∈ past, d.ended? = some id) → s ≠ .nothing
  paid : (∃ d ∈ past, d.sent? = some true) ↔ s = .paid
  refused : (∃ d ∈ past, d.sent? = some false) ↔ s = .refused

theorem booked_nil (id : JobId) : Booked id [] .nothing := by
  constructor <;> simp

theorem stored?_of_sent? {d : Deed} (h : d.sent? ≠ some true) : d.stored? = none := by
  obtain ⟨a, r⟩ := d
  cases a with
  | appendEnvelope x =>
    cases r with
    | error => rfl
    | ok => exact absurd rfl h
  | _ => rfl

theorem exists_mem_snoc {past : List Deed} {d : Deed} {P : Deed → Prop} :
    (∃ d' ∈ past ++ [d], P d') ↔ (∃ d' ∈ past, P d') ∨ P d := by
  simp [or_and_right, exists_or]

theorem Booked.snoc {id : JobId} {past : List Deed} {s s' : Duty} {d : Deed}
    (h : Booked id past s) (move : DutyMove id s d s') : Booked id (past ++ [d]) s' := by
  have own : ∀ i, d.ended? = some i ∨ d.stored? = some i → i = id := by
    intro i hi
    cases move with
    | kept he hs =>
      rw [he, stored?_of_sent? (by rw [hs]; nofun)] at hi
      exact absurd hi (by simp)
    | ended he hs =>
      rw [he, stored?_of_sent? (by rw [hs]; nofun)] at hi
      simp only [Option.some.injEq, reduceCtorEq, or_false] at hi
      exact hi.symm
    | @paid _ x isNew hid =>
      rw [← hid]
      cases isNew with
      | false => exact absurd hi (by simp [Deed.ended?, Deed.stored?])
      | true => simpa [Deed.ended?, Deed.stored?, eq_comm] using hi
    | refused => exact absurd hi (by simp [Deed.ended?, Deed.stored?])
  refine ⟨?_, ?_, ?_, ?_⟩
  · intro d' hd'
    rcases List.mem_append.1 hd' with hd' | hd'
    · exact h.own d' hd'
    · rw [List.mem_singleton.1 hd']
      exact own
  · rw [exists_mem_snoc]
    cases move with
    | kept he => simpa [he] using h.ended
    | ended | paid | refused => exact fun _ => nofun
  · rw [exists_mem_snoc, h.paid]
    cases move with
    | kept _ hs | ended _ hs => simp [hs]
    | paid => simp [Deed.sent?]
    | refused _ hs => rcases hs with rfl | rfl <;> simp [Deed.sent?]
  · rw [exists_mem_snoc, h.refused]
    cases move with
    | kept _ hs | ended _ hs => simp [hs]
    | paid _ hs => rcases hs with rfl | rfl <;> simp [Deed.sent?]
    | refused => simp [Deed.sent?]

namespace Engine

theorem QueueMoves.keyed {e e' : Engine} {o : Option JobId} (h : e.QueueMoves e' o)
    (hq : e.queue.Keyed) : e'.queue.Keyed := by
  rcases h with same | ⟨c, x, ok, -⟩
  · rwa [same]
  · exact (Queue.Call.change ok).keyed hq

theorem QueueMoves.ended {e e' : Engine} {o : Option JobId} (h : e.QueueMoves e' o)
    (hq : e.queue.Keyed) {id : JobId} {j : Job} (hj : e'.queue.get? id = some j)
    (hj' : j.isActive = false) :
    (∃ k, e.queue.get? id = some k ∧ k.isActive = false) ∨ o = some id := by
  rcases h with same | ⟨c, x, ok, hends⟩
  · exact Or.inl ⟨j, same ▸ hj, hj'⟩
  · exact ((Queue.Call.change ok).ended hq hj hj').imp_right (hends id)

end Engine

namespace Errand

def duty (x : Errand) : Duty := Fleet.standing (fun j => settlement j.id) .nothing x

/-- The errand has taken its job out of the queue for good. -/
def HasEnded (x : Errand) : Prop := ∃ d ∈ x.past, d.ended? = some x.job.id

/-- The errand has come to where an envelope is due. -/
def IsDue (x : Errand) : Prop := x.HasEnded ∨ ∃ d ∈ x.past, d.sent? ≠ none

/-- The inbox refused the envelope, or the worker stopped before it sent one. -/
def IsCutOff (x : Errand) : Prop :=
  (∃ d ∈ x.past, d.sent? = some false) ∨ (x.isStopped = true ∧ ∀ d ∈ x.past, d.sent? = none)

instance (x : Errand) : Decidable x.HasEnded := inferInstanceAs (Decidable (∃ d ∈ x.past, _))

instance (x : Errand) : Decidable x.IsDue := inferInstanceAs (Decidable (_ ∨ ∃ d ∈ x.past, _))

instance (x : Errand) : Decidable x.IsCutOff :=
  inferInstanceAs (Decidable ((∃ d ∈ x.past, _) ∨ _ ∧ ∀ d ∈ x.past, _))

end Errand

namespace Fleet

variable {e : Engine} {f g : Fleet}

theorem Steps.booked (run : Steps (idle e) f) {x : Errand} (hx : x ∈ f.errands) :
    Booked x.job.id x.past x.duty :=
  Steps.standing_induction (P := fun j past s => Booked j.id past s)
    (fun cfg worker job => Worker.settlement_process cfg worker job) (fun j => booked_nil j.id)
    (fun _ _ _ _ r h allowed => h.snoc (settlement_move allowed r)) run hx

/-- The inbox has taken an envelope for the job. -/
def HasAppended (id : JobId) : Fleet → Prop := Did fun _ d => d.stored? = some id

instance (id : JobId) (f : Fleet) : Decidable (f.HasAppended id) :=
  inferInstanceAs (Decidable (f.Did _))

/-- What the stores have to do with the pasts of the errands. -/
structure Accounted (f : Fleet) : Prop where
  keyed : f.engine.queue.Keyed
  ended : ∀ id j, f.engine.queue.get? id = some j → j.isActive = false →
    f.Did fun k d => k.id = id ∧ d.ended? = some id
  seen : ∀ id ∈ f.engine.inbox.seen, f.HasAppended id
  sent : ∀ x ∈ f.errands, (∃ d ∈ x.past, d.sent? = some true) → f.HasAppended x.job.id

theorem accounted_idle (hq : e.queue = .empty) (hi : e.inbox = .empty) : Accounted (idle e) := by
  refine ⟨?_, ?_, ?_, fun x hx => by cases hx⟩
  · rw [show (idle e).engine.queue = .empty from hq]
    exact Queue.keyed_empty
  · intro id j hj
    rw [show (idle e).engine.queue = .empty from hq] at hj
    cases hj
  · intro id hid
    rw [show (idle e).engine.inbox = .empty from hi] at hid
    cases hid

/-- An envelope that the inbox takes is the job's first, or there was one before. -/
theorem Accounted.appended_of_sent (h : Accounted f) {x x' : Errand} {e' : Engine} {a : Action}
    {r : a.Reply} {s s' : Duty} (ans : x.Answered f.engine e' x' a r) (hx' : x' ∈ g.errands)
    (step : Step f g) (move : DutyMove x.job.id s ⟨a, r⟩ s')
    (hd : Deed.sent? ⟨a, r⟩ = some true) : g.HasAppended x.job.id := by
  have now : (⟨a, r⟩ : Deed) ∈ x'.past := by
    rw [ans.past]
    exact List.mem_append_right _ (List.mem_singleton_self _)
  generalize he : (⟨a, r⟩ : Deed) = d at move hd now
  cases move with
  | kept _ hs | ended _ hs => rw [hs] at hd; cases hd
  | refused => cases hd
  | @paid _ y isNew hid =>
    cases isNew with
    | true => exact ⟨x', hx', _, now, congrArg some hid⟩
    | false =>
      cases he
      rcases ans.source with ⟨foreign, -⟩ | ⟨-, done⟩
      · cases foreign
      · rcases Engine.appendEnvelope_cases (Engine.reply_inj done) with
          ⟨-, _, hr⟩ | ⟨-, -, hseen⟩ | ⟨hr, -⟩
        · cases hr
        · exact hid ▸ (h.seen _ hseen).step step
        · cases hr

theorem Accounted.answered (h : Accounted f) {n : Nat} {x x' : Errand} {e' : Engine} {a : Action}
    {r : a.Reply} (hx : f.errands[n]? = some x) (hj : x'.job = x.job)
    (ans : x.Answered f.engine e' x' a r) (step : Step f ⟨e', f.errands.set n x'⟩)
    (move : DutyMove x.job.id x.duty ⟨a, r⟩ x'.duty) (booked : Booked x'.job.id x'.past x'.duty) :
    Accounted ⟨e', f.errands.set n x'⟩ := by
  have hx' : x' ∈ f.errands.set n x' := List.mem_set (List.getElem?_eq_some_iff.1 hx).1 x'
  have now : (⟨a, r⟩ : Deed) ∈ x'.past := by
    rw [ans.past]
    exact List.mem_append_right _ (List.mem_singleton_self _)
  refine ⟨ans.queue.keyed h.keyed, ?_, ?_, ?_⟩
  · intro id j hj hj'
    rcases ans.queue.ended h.keyed hj hj' with ⟨k, hk, hk'⟩ | hd
    · exact (h.ended id k hk hk').step step
    · exact ⟨x', hx', _, now, (booked.own _ now id (Or.inl hd)).symm, hd⟩
  · intro id hid
    rcases ans.seen hid with hid | hd
    · exact (h.seen id hid).step step
    · exact ⟨x', hx', _, now, hd⟩
  · intro y hy hsent
    rcases List.mem_or_eq_of_mem_set hy with hy | rfl
    · exact (h.sent y hy hsent).step step
    · rw [ans.past, exists_mem_snoc] at hsent
      rw [hj]
      rcases hsent with hsent | hd
      · exact (h.sent x (List.mem_of_getElem? hx) hsent).step step
      · exact h.appended_of_sent ans hx' step move hd

/-- The account stays right where no errand sends an envelope or ends a job. -/
theorem Accounted.quiet (h : Accounted f) (step : Step f g)
    (queue : f.engine.QueueMoves g.engine none)
    (seen : ∀ id ∈ g.engine.inbox.seen, id ∈ f.engine.inbox.seen)
    (sent : ∀ y ∈ g.errands, (∃ d ∈ y.past, d.sent? = some true) →
      ∃ x ∈ f.errands, x.job = y.job ∧ ∃ d ∈ x.past, d.sent? = some true) : Accounted g := by
  refine ⟨queue.keyed h.keyed, fun id j hj hj' => ?_,
    fun id hid => (h.seen id (seen id hid)).step step, fun y hy hsent => ?_⟩
  · rcases queue.ended h.keyed hj hj' with ⟨k, hk, hk'⟩ | hn
    · exact (h.ended id k hk hk').step step
    · cases hn
  · obtain ⟨x, hx, hj, hsent⟩ := sent y hy hsent
    exact hj ▸ (h.sent x hx hsent).step step

theorem Steps.accounted (hq : e.queue = .empty) (hi : e.inbox = .empty) (run : Steps (idle e) f) :
    Accounted f := by
  induction run with
  | refl => exact accounted_idle hq hi
  | @tail f g run step ih =>
    have stays := step
    cases step with
    | begin cfg worker job =>
      refine ih.quiet stays (Or.inl rfl) (fun _ hid => hid) fun y hy hsent => ?_
      rcases List.mem_append.1 hy with hy | hy
      · exact ⟨y, hy, rfl, hsent⟩
      · rw [List.mem_singleton.1 hy] at hsent
        obtain ⟨d, hd, -⟩ := hsent
        cases hd
    | @move n x x' e' hx move =>
      have hmem := List.mem_of_getElem? hx
      have hx' : x' ∈ f.errands.set n x' := List.mem_set (List.getElem?_eq_some_iff.1 hx).1 x'
      rcases move.cases with ⟨a, r, ans⟩ | ⟨rfl, hpast, -⟩
      · have keeps := Steps.keeps (R := fun j => settlement j.id)
          (fun cfg worker job => Worker.settlement_process cfg worker job) run hmem
        have duty : x'.duty = (settlement x.job.id).after x.duty ⟨a, r⟩ :=
          standing_answered ans move.job
        refine ih.answered hx move.job ans stays ?_ (Steps.booked (run.tail stays) hx')
        rw [duty]
        exact settlement_move (ans.allowed keeps) r
      · refine ih.quiet stays (Or.inl rfl) (fun _ hid => hid) fun y hy hsent => ?_
        rcases List.mem_or_eq_of_mem_set hy with hy | rfl
        · exact ⟨y, hy, rfl, hsent⟩
        · exact ⟨x, hmem, move.job.symm, hpast ▸ hsent⟩
    | outside out =>
      exact ih.quiet stays out.queue (fun _ hid => out.seen hid)
        fun y hy hsent => ⟨y, hy, rfl, hsent⟩

/-- An errand at rest that came to where an envelope was due has sent one, unless it was cut off. -/
theorem sent_of_isDue (run : Steps (idle e) f) {x : Errand} (hx : x ∈ f.errands)
    (rest : x.isRunning = false) (due : x.IsDue) (through : ¬ x.IsCutOff) :
    ∃ d ∈ x.past, d.sent? = some true := by
  have booked := Steps.booked run hx
  rw [booked.paid]
  have unsent : x.duty ≠ .paid → x.duty ≠ .refused → ∀ d ∈ x.past, d.sent? = none := by
    intro hp hr d hd
    cases hs : d.sent? with
    | none => rfl
    | some b =>
      cases b with
      | true => exact absurd (booked.paid.1 ⟨d, hd, hs⟩) hp
      | false => exact absurd (booked.refused.1 ⟨d, hd, hs⟩) hr
  cases hs : x.duty with
  | paid => rfl
  | refused => exact absurd (Or.inl (booked.refused.2 hs)) through
  | nothing =>
    rcases due with ended | ⟨d, hd, sent⟩
    · exact absurd hs (booked.ended ended)
    · exact absurd (unsent (by simp [hs]) (by simp [hs]) d hd) sent
  | envelope =>
    -- in debt the plan is not at its end, so the worker must have stopped
    have keeps := Steps.keeps (R := fun j => settlement j.id)
      (fun cfg worker job => Worker.settlement_process cfg worker job) run hx
    have stopped : x.isStopped = true := by
      by_contra hn
      rw [Errand.isRunning, Bool.and_eq_false_imp] at rest
      have done := rest (by simpa using hn)
      unfold Errand.isDone at done
      split at done
      · rename_i hp
        rw [hp] at keeps
        exact keeps hs
      · cases done
    exact absurd (Or.inr ⟨stopped, unsent (by simp [hs]) (by simp [hs])⟩) through

/-- A job that has ended, with all its errands at rest, was ended by one of them; and it has been
given an envelope exactly when some errand that came to where one was due was not cut off. -/
theorem Steps.appended_iff {config : Config} {start : Timestamp} {surroundings : Surroundings}
    (run : Steps (idle (.create config start surroundings)) f) {id : JobId} {j : Job}
    (stored : f.engine.queue.get? id = some j) (ended : j.state = .completed ∨ j.state = .dlq)
    (rest : ∀ x ∈ f.errands, x.job.id = id → x.isRunning = false) :
    (∃ x ∈ f.errands, x.job.id = id ∧ x.HasEnded) ∧
      (f.HasAppended id ↔ ∃ x ∈ f.errands, x.job.id = id ∧ x.IsDue ∧ ¬ x.IsCutOff) := by
  have accounted := Steps.accounted rfl rfl run
  have inactive : j.isActive = false := by
    rcases ended with hs | hs <;> rw [Job.isActive, hs] <;> rfl
  refine ⟨?_, ?_, ?_⟩
  · obtain ⟨x, hx, d, hd, hid, hends⟩ := accounted.ended id j stored inactive
    exact ⟨x, hx, hid, d, hd, hid ▸ hends⟩
  · rintro ⟨x, hx, d, hd, hstored⟩
    have booked := Steps.booked run hx
    have sent : d.sent? = some true := by
      by_contra hn
      rw [stored?_of_sent? hn] at hstored
      cases hstored
    have due : x.IsDue := Or.inr ⟨d, hd, by rw [sent]; nofun⟩
    refine ⟨x, hx, (booked.own d hd id (Or.inr hstored)).symm, due, ?_⟩
    rintro (⟨d', hd', refused⟩ | ⟨-, unsent⟩)
    · have hp := booked.paid.1 ⟨d, hd, sent⟩
      rw [booked.refused.1 ⟨d', hd', refused⟩] at hp
      cases hp
    · rw [unsent d hd] at sent
      cases sent
  · rintro ⟨x, hx, hid, due, through⟩
    rw [← hid]
    exact accounted.sent x hx (sent_of_isDue run hx (rest x hx hid) due through)

/-- A worker acknowledges its job and stops before it sends the envelope. -/
def stoppedWorker : Fleet :=
  [.enqueue (Queue.sampleJob 1 "post-1"), .loop (.leaseJobs "w-1" 1 (.ofMillis 1000)),
    .begin "w-1" ⟨.ofNat 1⟩, .turns 0 20, .arrive 0 (.outcome .success), .turns 0 5,
    .stop 0].foldl follow (idle (.create .usual .epoch .quiet))

theorem appended_iff_stoppedWorker :
    (∃ x ∈ stoppedWorker.errands, x.job.id = ⟨.ofNat 1⟩ ∧ x.HasEnded) ∧
      ¬ stoppedWorker.HasAppended ⟨.ofNat 1⟩ := by
  have run : Steps (idle (.create .usual .epoch .quiet)) stoppedWorker := foldl_follow_steps _ _
  have completed :
      (stoppedWorker.engine.queue.get? ⟨.ofNat 1⟩).map Job.state = some .completed := by
    decide +kernel
  obtain ⟨j, stored, ended⟩ := Option.map_eq_some_iff.1 completed
  have := run.appended_iff stored (Or.inl ended) (by decide +kernel)
  exact ⟨this.1, this.2.not.2 (by decide +kernel)⟩

/-- The inbox fails once, when the envelope of the only job is sent. Afterwards everything works:
leases are taken back, another worker looks for work, and the dispatcher for envelopes. -/
def lostEnvelope : Fleet :=
  [.enqueue (Queue.sampleJob 1 "post-1"), .disturb .appendEnvelope [.fail],
    .loop (.leaseJobs "w-1" 1 (.ofMillis 1000)), .begin "w-1" ⟨.ofNat 1⟩, .turns 0 20,
    .arrive 0 (.outcome .success), .turns 0 20, .sleep 60000, .loop .reclaimJobs,
    .loop (.leaseJobs "w-2" 1 (.ofMillis 1000)),
    .loop (.leaseEnvelopes "dispatcher-0" 10 (.ofMillis 1000))].foldl follow
    (idle (.create .usual .epoch .quiet))

theorem exists_ended_without_envelope :
    ∃ f, Steps (idle (.create .usual .epoch .quiet)) f ∧
      (f.engine.queue.get? ⟨.ofNat 1⟩).map Job.state = some .completed ∧
      (∀ x ∈ f.errands, x.isRunning = false) ∧ ¬ f.HasAppended ⟨.ofNat 1⟩ :=
  ⟨lostEnvelope, foldl_follow_steps _ _, by decide +kernel, by decide +kernel, by decide +kernel⟩

end Fleet

end Courier
