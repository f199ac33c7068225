import Courier.Proofs.Inbox

/-! The calls of an inbox, and what each of them makes of one stored record. Four things can happen
to it; whatever a call is about, the record meets exactly one of them or none. -/

namespace Courier.Inbox

/-- The calls that may change an inbox. An append comes with the id that is drawn for it. -/
inductive Call where
  | append (id : EnvelopeId) (x : Envelope)
  | lease (consumer : String) (batch : Nat) (visibility : Span)
  | ack (id : EnvelopeId) (consumer : String)
  | reclaim
  | prune (cutoff : Timestamp)

/-- What a successful call tells its caller. -/
inductive Answer where
  | taken (b : Bool)
  | records (rs : List InboxRecord)
  | nothing
  | count (n : Nat)

namespace Call

/-- A call made at `now`. -/
def run (now : Timestamp) (s : Inbox) : Call → Except Error (Answer × Inbox)
  | append id x => let r := s.append id x; .ok (.taken r.1, r.2)
  | lease consumer batch visibility =>
    let r := s.lease consumer batch visibility now
    .ok (.records r.1, r.2)
  | ack id consumer => (s.ack id consumer).map fun s => (.nothing, s)
  | reclaim => let r := s.reclaim now; .ok (.count r.1, r.2)
  | prune cutoff => let r := s.prune cutoff; .ok (.count r.1, r.2)

def answer (now : Timestamp) (s : Inbox) (c : Call) : Except Error Answer :=
  (c.run now s).map Prod.fst

/-- The inbox after a call; one that fails leaves it as it was. -/
def after (now : Timestamp) (s : Inbox) (c : Call) : Inbox :=
  match c.run now s with
  | .ok (_, s') => s'
  | .error _ => s

end Call

def acked (r : InboxRecord) : InboxRecord :=
  { r with state := .acked, leasedBy := none, leaseUntil := none }

/-- Whether `consumer` may acknowledge the record. -/
def HeldBy (consumer : String) (r : InboxRecord) : Prop :=
  r.state = .leased ∧ r.leasedBy = some consumer

section

variable (now : Timestamp) (s : Inbox)

@[simp] theorem Call.answer_append (id : EnvelopeId) (x : Envelope) :
    (append id x).answer now s = .ok (.taken (s.append id x).1) := rfl

@[simp] theorem Call.after_append (id : EnvelopeId) (x : Envelope) :
    (append id x).after now s = (s.append id x).2 := rfl

@[simp] theorem Call.answer_lease (consumer : String) (batch : Nat) (visibility : Span) :
    (lease consumer batch visibility).answer now s =
      .ok (.records (s.lease consumer batch visibility now).1) := rfl

@[simp] theorem Call.after_lease (consumer : String) (batch : Nat) (visibility : Span) :
    (lease consumer batch visibility).after now s =
      (s.lease consumer batch visibility now).2 := rfl

@[simp] theorem Call.answer_reclaim :
    reclaim.answer now s = .ok (.count (s.reclaim now).1) := rfl

@[simp] theorem Call.after_reclaim : reclaim.after now s = (s.reclaim now).2 := rfl

@[simp] theorem Call.answer_prune (cutoff : Timestamp) :
    (prune cutoff).answer now s = .ok (.count (s.prune cutoff).1) := rfl

@[simp] theorem Call.after_prune (cutoff : Timestamp) :
    (prune cutoff).after now s = (s.prune cutoff).2 := rfl

/-- An acknowledgement by the holder is carried out; any other is refused and changes nothing. -/
theorem Call.ack_cases (id : EnvelopeId) (consumer : String) :
    (∃ r, s.records.get? id = some r ∧ HeldBy consumer r ∧
        (ack id consumer).answer now s = .ok .nothing ∧
        (ack id consumer).after now s = s.put (acked r)) ∨
      ((ack id consumer).after now s = s ∧ ∃ e, (ack id consumer).answer now s = .error e ∧
        ∀ r, s.records.get? id = some r →
          ¬ HeldBy consumer r ∧ e = .envelopeNotLeasedBy id consumer) := by
  have answer : (ack id consumer).answer now s =
      (s.ack id consumer).map fun _ => Answer.nothing := by
    simp only [Call.answer, run]
    cases s.ack id consumer <;> rfl
  have after : (ack id consumer).after now s = (s.ack id consumer).toOption.getD s := by
    simp only [Call.after, run]
    cases s.ack id consumer <;> rfl
  rw [answer, after, Inbox.ack]
  cases hr : s.records.get? id with
  | none => exact Or.inr ⟨rfl, _, rfl, fun r => nofun⟩
  | some r =>
    by_cases held : r.state = .leased ∧ r.leasedBy = some consumer
    · exact Or.inl ⟨r, rfl, held, by simp only [if_pos held]; rfl,
        by simp only [if_pos held]; rfl⟩
    · refine Or.inr ⟨by simp only [if_neg held]; rfl, .envelopeNotLeasedBy id consumer,
        by simp only [if_neg held]; rfl, ?_⟩
      rintro r' ⟨⟩
      exact ⟨held, rfl⟩

end

theorem isPending_iff (r : InboxRecord) : isPending r = true ↔ r.state = .pending :=
  decide_eq_true_iff

theorem isExpired_iff {now : Timestamp} {r : InboxRecord} : isExpired now r = true ↔
    r.state = .leased ∧ ∃ t, r.leaseUntil = some t ∧ t ≤ now := by
  simp [isExpired, Option.any_eq_true]

theorem isPrunable_iff {cutoff : Timestamp} {r : InboxRecord} : isPrunable cutoff r = true ↔
    r.state = .acked ∧ r.envelope.receivedAt < cutoff := by
  simp [isPrunable]

/-- What becomes of the record `r`, by call and answer. -/
inductive Fate (now : Timestamp) (r : InboxRecord) :
    Call → Except Error Answer → Option InboxRecord → Prop where
  | untouched {c : Call} {a : Except Error Answer} :
      (∀ rs, a = .ok (.records rs) → ∀ r' ∈ rs, r'.id ≠ r.id) →
      (∀ consumer, c = .ack r.id consumer → ¬ HeldBy consumer r ∧
        a = .error (.envelopeNotLeasedBy r.id consumer)) →
      (c = .reclaim → isExpired now r = false) →
      (∀ cutoff, c = .prune cutoff → isPrunable cutoff r = false) → Fate now r c a (some r)
  | leased {consumer : String} {batch : Nat} {visibility : Span} {rs : List InboxRecord} :
      r.state = .pending → leaseTo consumer (now.add visibility) r ∈ rs →
      Fate now r (.lease consumer batch visibility) (.ok (.records rs))
        (some (leaseTo consumer (now.add visibility) r))
  | acked {consumer : String} : HeldBy consumer r →
      Fate now r (.ack r.id consumer) (.ok .nothing) (some (acked r))
  | requeued {n : Nat} : isExpired now r = true →
      Fate now r .reclaim (.ok (.count n)) (some (requeue r))
  | pruned {cutoff : Timestamp} {n : Nat} : isPrunable cutoff r = true →
      Fate now r (.prune cutoff) (.ok (.count n)) none

theorem Sound.fate {s : Inbox} (h : s.Sound) {id : EnvelopeId} {r : InboxRecord}
    (hr : s.records.get? id = some r) (now : Timestamp) {c : Call}
    (unused : ∀ x, c ≠ .append id x) :
    Fate now r c (c.answer now s) ((c.after now s).records.get? id) := by
  obtain rfl : r.id = id := h.keyed id r hr
  cases c with
  | append fresh x =>
    have other : r.id ≠ fresh := fun same => unused x (by rw [same])
    rw [Call.after_append, get?_append_of_ne other, hr]
    exact .untouched (by simp) (by simp) (by simp) (by simp)
  | lease consumer batch visibility =>
    rw [Call.after_lease]
    rcases h.get?_lease consumer batch visibility now r.id with
      ⟨r₀, hr₀, waits, mem, hget⟩ | ⟨none, hget⟩
    · obtain rfl : r = r₀ := Option.some.inj (hr.symm.trans hr₀)
      rw [hget]
      exact .leased waits mem
    · rw [hget, hr]
      refine .untouched ?_ (by simp) (by simp) (by simp)
      rintro rs answer r' hr'
      obtain rfl := Answer.records.inj (Except.ok.inj answer)
      exact none r' hr'
  | ack id' consumer =>
    rcases Call.ack_cases now s id' consumer with
      ⟨r', hr', held, answer, after⟩ | ⟨after, e, answer, refused⟩
    · rw [answer, after, get?_put]
      obtain rfl : r'.id = id' := h.keyed id' r' hr'
      split_ifs with same
      · have same : r.id = r'.id := same
        rw [← same, hr] at hr'
        obtain rfl := Option.some.inj hr'
        exact .acked held
      · rw [hr]
        exact .untouched (by simp) (fun _ he => absurd (Call.ack.inj he).1.symm same) (by simp)
          (by simp)
    · rw [answer, after, hr]
      refine .untouched (by simp) ?_ (by simp) (by simp)
      rintro consumer' ⟨⟩
      obtain ⟨other, rfl⟩ := refused r hr
      exact ⟨other, rfl⟩
  | reclaim =>
    rw [Call.after_reclaim, get?_reclaim, hr, Option.map_some]
    split_ifs with expired
    · exact .requeued expired
    · exact .untouched (by simp) (by simp) (fun _ => by simpa using expired) (by simp)
  | prune cutoff =>
    rw [Call.after_prune, get?_prune, hr, Option.filter_some]
    cases prunable : isPrunable cutoff r
    · refine .untouched (by simp) (by simp) (by simp) ?_
      rintro cutoff' ⟨⟩
      exact prunable
    · exact .pruned prunable

/-- A stored record was stored before, or an append has just brought it. -/
theorem Sound.stored {s : Inbox} (h : s.Sound) {now : Timestamp} {c : Call} {id : EnvelopeId}
    {r : InboxRecord} (hr : (c.after now s).records.get? id = some r) :
    (∃ r₀, s.records.get? id = some r₀) ∨ ∃ x, c = .append id x ∧
      c.answer now s = .ok (.taken true) ∧ r = ⟨id, x, .pending, none, none, 0⟩ := by
  cases c with
  | append fresh x =>
    rcases get?_append hr with hr | ⟨taken, rfl, rfl⟩
    · exact Or.inl ⟨r, hr⟩
    · exact Or.inr ⟨x, rfl, congrArg (fun b => Except.ok (Answer.taken b)) taken, rfl⟩
  | lease consumer batch visibility =>
    rcases h.get?_lease consumer batch visibility now id with ⟨r₀, hr₀, -⟩ | ⟨-, hget⟩
    · exact Or.inl ⟨r₀, hr₀⟩
    · exact Or.inl ⟨r, hget.symm.trans hr⟩
  | ack id' consumer =>
    rcases Call.ack_cases now s id' consumer with ⟨r', hr', -, -, after⟩ | ⟨after, -⟩
    · rw [after, get?_put] at hr
      obtain rfl : r'.id = id' := h.keyed id' r' hr'
      split_ifs at hr with same
      · exact Or.inl ⟨r', by rw [same]; exact hr'⟩
      · exact Or.inl ⟨r, hr⟩
    · exact Or.inl ⟨r, after ▸ hr⟩
  | reclaim =>
    rw [Call.after_reclaim, get?_reclaim, Option.map_eq_some_iff] at hr
    obtain ⟨r₀, hr₀, -⟩ := hr
    exact Or.inl ⟨r₀, hr₀⟩
  | prune cutoff =>
    rw [Call.after_prune, get?_prune, Option.filter_eq_some_iff] at hr
    exact Or.inl ⟨r, hr.1⟩

theorem Sound.after {s : Inbox} (h : s.Sound) (now : Timestamp) {c : Call}
    (unused : ∀ id x, c = .append id x → s.records.get? id = none) : (c.after now s).Sound := by
  cases c with
  | append id x =>
    by_cases seen : x.jobId ∈ s.seen
    · rw [Call.after_append, append_of_seen seen]
      exact h
    · exact h.change (fun _ => unused id x rfl) (Change.stored seen)
  | lease consumer batch visibility => exact h.lease consumer batch visibility now
  | ack id consumer =>
    rcases Call.ack_cases now s id consumer with ⟨r, hr, -, -, after⟩ | ⟨after, -⟩
    · obtain rfl : r.id = id := h.keyed id r hr
      rw [after]
      exact h.put hr rfl
    · rw [after]
      exact h
  | reclaim => exact h.reclaim now
  | prune cutoff => exact h.prune cutoff

end Courier.Inbox
