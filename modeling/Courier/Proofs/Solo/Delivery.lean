import Courier.Proofs.Solo.Ledger

/-! The delivery of envelopes over a whole shift of a dispatcher: at the end of each cycle the inbox,
the figures and the ledger agree. In between the dispatcher has one envelope at most that one of them
does not show yet. -/

namespace Courier

open Plan

namespace Dispatch

/-- The records in the dispatcher's hands. -/
def inHand : Dispatch → List InboxRecord
  | batch rs | settled _ _ rs | refused rs => rs
  | clocked _ r rs | applied _ r rs => r :: rs
  | lost => []

/-- What the producer took and is still to be acknowledged. -/
def unacked : Dispatch → List EnvelopeId
  | applied _ r _ => [r.id]
  | _ => []

/-- How many deliveries are still to be entered into the figures. -/
def unnoted : Dispatch → Nat
  | settled _ _ _ => 1
  | _ => 0

def unnotedFailures : Dispatch → Nat
  | refused _ => 1
  | _ => 0

/-- The latency that is still to be entered. -/
def unnotedLatency : Dispatch → Option Int
  | applied now r _ | settled now r _ => some (r.envelope.latencyMs now)
  | _ => none

def Clocked (clock : Timestamp) : Dispatch → Prop
  | clocked now _ _ => clock = now
  | _ => True

/-- The figures agree with the ledger but for what is still to be entered. -/
structure Figures (s : Dispatch) (l : Ledger) (stats : DeliveryStats) : Prop where
  applied : stats.applied + s.unnoted = l.acked.length
  failures : stats.applyFailures + s.unnotedFailures = l.failures
  violations : stats.violations ≤ stats.applied
  latency : l.latencies.foldl max 0 =
    s.unnotedLatency.elim stats.maxLatencyMs (max stats.maxLatencyMs)

end Dispatch

/-- Inbox, figures and ledger agree. -/
structure InOrder (consumer : String) (s : Dispatch) (l : Ledger) (e : Engine) : Prop where
  stocked : e.inbox.Stocked l.stored l.acked
  lent : e.inbox.Lends consumer s.inHand
  taken : l.taken = (l.acked ++ s.unacked).map some
  once : (l.acked ++ s.unacked).Nodup
  clock : s.Clocked l.clock
  figures : s.Figures l e.stats
  sure : s ≠ .lost

variable {consumer : String} {s : Dispatch} {l : Ledger} {e e' : Engine} {h : List Moment}
  {now : Timestamp} {r : InboxRecord} {rs : List InboxRecord}

namespace InOrder

theorem start (inbox : e.inbox = .empty) (stats : e.stats = .zero) :
    InOrder consumer (.batch []) .blank e where
  stocked := by
    rw [inbox]
    exact .empty
  lent := Inbox.lends_nil _ _
  taken := rfl
  once := List.nodup_nil
  clock := trivial
  figures := by
    rw [stats]
    exact ⟨rfl, rfl, Nat.le_refl _, rfl⟩
  sure := nofun

/-- The inbox has changed, but not what is in the dispatcher's hands. -/
theorem of_inbox (acc : InOrder consumer s l e) (stats : e'.stats = e.stats)
    (stocked : e'.inbox.Stocked l.stored l.acked) (lent : e'.inbox.Lends consumer s.inHand) :
    InOrder consumer s l e' :=
  { acc with
    stocked, lent
    figures := by
      rw [stats]
      exact acc.figures }

/-- Something has happened that neither inbox nor figures show. -/
theorem of_same (acc : InOrder consumer s l e) (inbox : e'.inbox = e.inbox)
    (stats : e'.stats = e.stats) : InOrder consumer s l e' :=
  acc.of_inbox stats (inbox ▸ acc.stocked) (inbox ▸ acc.lent)

theorem reclaim {result : Except Failure Nat} (acc : InOrder consumer (.batch []) l e)
    (inMemory : e.InMemory) (answers : e.Answers .reclaimEnvelopes result e') :
    InOrder consumer (.batch []) l e' := by
  obtain ⟨-, inbox, stats⟩ := answers.reclaimed inMemory
  refine acc.of_inbox stats ?_ (Inbox.lends_nil _ _)
  rw [inbox]
  exact acc.stocked.reclaim _

theorem prune {cutoff : Timestamp} {result : Except Failure Nat}
    (acc : InOrder consumer (.batch []) l e) (inMemory : e.InMemory)
    (answers : e.Answers (.pruneEnvelopes cutoff) result e') :
    InOrder consumer (.batch []) l e' := by
  obtain ⟨inbox, stats⟩ := answers.pruned inMemory
  refine acc.of_inbox stats ?_ (Inbox.lends_nil _ _)
  rw [inbox]
  exact acc.stocked.prune _

theorem append {x : Envelope} {result : Except Failure Bool} (acc : InOrder consumer s l e)
    (inMemory : e.InMemory) (new : ∀ x, (⟨e.ids.next⟩, x) ∉ l.stored)
    (answers : e.Answers (.appendEnvelope x) result e') :
    InOrder consumer s (l.note ⟨e, .deed ⟨.appendEnvelope x, result⟩⟩) e' := by
  obtain ⟨rfl, inbox, stats⟩ := answers.appended inMemory
  have stocked := acc.stocked.append new x
  have lent := acc.lent.append acc.stocked new x
  rw [← inbox] at stocked lent
  cases fresh : (e.inbox.append ⟨e.ids.next⟩ x).1 with
  | false =>
    rw [fresh] at stocked
    exact acc.of_inbox stats stocked lent
  | true =>
    rw [fresh] at stocked
    obtain ⟨applied, failures, violations, latency⟩ := acc.figures
    refine ⟨stocked, lent, acc.taken, acc.once, acc.clock, ?_, acc.sure⟩
    rw [stats]
    exact ⟨applied, failures, violations, latency⟩

theorem lease {batch : Nat} {visibility : Span} {result : Except Failure (List InboxRecord)}
    (acc : InOrder consumer (.batch []) l e) (inMemory : e.InMemory)
    (answers : e.Answers (.leaseEnvelopes consumer batch visibility) result e') :
    InOrder consumer
      (Dispatch.after (.batch []) ⟨.leaseEnvelopes consumer batch visibility, result⟩) l e' := by
  obtain ⟨rfl, inbox, stats⟩ := answers.lent inMemory
  have lent : e'.inbox.Lends consumer (e.inbox.lease consumer batch visibility e.now).1 := by
    rw [inbox]
    exact acc.stocked.sound.lends_lease
  have stocked : e'.inbox.Stocked l.stored l.acked := by
    rw [inbox]
    exact acc.stocked.lease
  obtain ⟨applied, failures, violations, latency⟩ := acc.figures
  refine ⟨stocked, lent, acc.taken, acc.once, trivial, ?_, nofun⟩
  rw [stats]
  exact ⟨applied, failures, violations, latency⟩

/-- The turn of an envelope comes. -/
theorem readClock {result : Timestamp} (acc : InOrder consumer (.batch (r :: rs)) l e)
    (answers : e.Answers .readClock result e') :
    InOrder consumer (.clocked result r rs) { l with clock := result } e' := by
  obtain ⟨rfl, rfl⟩ : e.now = result ∧ e = e' := by
    have done := answers.performed rfl
    cases done
    exact ⟨rfl, rfl⟩
  obtain ⟨applied, failures, violations, latency⟩ := acc.figures
  exact ⟨acc.stocked, acc.lent, acc.taken, acc.once, rfl,
    ⟨applied, failures, violations, latency⟩, nofun⟩

/-- The producer is offered an envelope. -/
theorem offer {result : Except Failure Unit} (acc : InOrder consumer (.clocked now r rs) l e)
    (answers : e.Answers (.applyEnvelope r.envelope) result e') :
    InOrder consumer (Dispatch.after (.clocked now r rs) ⟨.applyEnvelope r.envelope, result⟩)
      (l.note ⟨e, .deed ⟨.applyEnvelope r.envelope, result⟩⟩) e' := by
  obtain ⟨sound, inbox, stats⟩ := answers.offered
  obtain ⟨stored, -, -⟩ := acc.lent.leased r List.mem_cons_self
  obtain ⟨applied, failures, violations, latency⟩ := acc.figures
  rcases result with (_ | _) | _
  · refine ⟨inbox ▸ acc.stocked, ?_, acc.taken, acc.once, trivial, ?_, nofun⟩
    · rw [inbox]
      exact ⟨fun r' hr' => acc.lent.leased r' (List.mem_cons_of_mem _ hr'),
        (List.nodup_cons.1 acc.lent.nodup).2⟩
    · rw [stats]
      exact ⟨applied, congrArg (· + 1) failures, violations, latency⟩
  · exact absurd rfl sound
  · have all : l.acked ++ Dispatch.unacked (.clocked now r rs) = l.acked := List.append_nil _
    have taken : l.taken = l.acked.map some := all ▸ acc.taken
    have once : l.acked.Nodup := all ▸ acc.once
    have own : l.clock = now := acc.clock
    refine ⟨inbox ▸ acc.stocked, inbox ▸ acc.lent, ?_, ?_, trivial, ?_, nofun⟩
    · show l.taken ++ [e.inbox.idFor? r.envelope.jobId] = (l.acked ++ [r.id]).map some
      rw [acc.stocked.sound.idFor?_eq stored, taken, List.map_append]
      rfl
    · -- what is in hand is on loan, and what is on loan was never acknowledged
      refine List.nodup_append.2 ⟨once, List.pairwise_singleton _ _, fun id hid id' hid' => ?_⟩
      obtain rfl := List.mem_singleton.1 hid'
      rintro rfl
      exact acc.stocked.not_acked acc.lent List.mem_cons_self hid
    · rw [stats]
      refine ⟨applied, failures, violations, ?_⟩
      show (l.latencies ++ [r.envelope.latencyMs l.clock]).foldl max 0 = _
      rw [List.foldl_append, latency, own]
      rfl

/-- What the producer took is acknowledged. -/
theorem ack {result : Except Failure Unit} (acc : InOrder consumer (.applied now r rs) l e)
    (inMemory : e.InMemory) (answers : e.Answers (.ackEnvelope r.id consumer) result e') :
    InOrder consumer (Dispatch.after (.applied now r rs) ⟨.ackEnvelope r.id consumer, result⟩)
      (l.note ⟨e, .deed ⟨.ackEnvelope r.id consumer, result⟩⟩) e' := by
  obtain ⟨rfl, inbox, stats⟩ := answers.acked inMemory acc.lent.ack
  obtain ⟨applied, failures, violations, latency⟩ := acc.figures
  have stocked := acc.stocked.ack acc.lent
  have lent := acc.lent.of_ack
  rw [← inbox] at stocked lent
  refine ⟨stocked, lent, ?_, ?_, trivial, ?_, nofun⟩
  · show l.taken = (l.acked ++ [r.id] ++ []).map some
    rw [List.append_nil]
    exact acc.taken
  · show (l.acked ++ [r.id] ++ []).Nodup
    rw [List.append_nil]
    exact acc.once
  · rw [stats]
    refine ⟨?_, failures, violations, latency⟩
    show e.stats.applied + 1 = (l.acked ++ [r.id]).length
    rw [List.length_append, ← applied]
    rfl

/-- A delivery is entered into the figures. -/
theorem noteDelivery {violated : Bool} {u : Unit}
    (acc : InOrder consumer (.settled now r rs) l e)
    (answers : e.Answers (.noteDelivery (r.envelope.latencyMs now) violated) u e') :
    InOrder consumer (.batch rs) l e' := by
  obtain rfl :
      { e with stats := e.stats.noteDelivery (r.envelope.latencyMs now) violated } = e' := by
    have done := answers.performed rfl
    cases done
    rfl
  obtain ⟨applied, failures, violations, latency⟩ := acc.figures
  refine ⟨acc.stocked, acc.lent, acc.taken, acc.once, trivial, ⟨applied, failures, ?_, latency⟩,
    nofun⟩
  show (if violated then e.stats.violations + 1 else e.stats.violations) ≤ e.stats.applied + 1
  split_ifs <;> omega

/-- A failure is entered into the figures. -/
theorem noteFailure {u : Unit} (acc : InOrder consumer (.refused rs) l e)
    (answers : e.Answers .noteApplyFailure u e') : InOrder consumer (.batch rs) l e' := by
  obtain rfl : { e with stats := e.stats.noteFailure } = e' := by
    have done := answers.performed rfl
    cases done
    rfl
  obtain ⟨applied, failures, violations, latency⟩ := acc.figures
  exact ⟨acc.stocked, acc.lent, acc.taken, acc.once, trivial,
    ⟨applied, failures, violations, latency⟩, nofun⟩

/-- Whatever the dispatcher does, the account stays in order. -/
theorem act {a : Action} {result : a.Reply} (acc : InOrder consumer s l e)
    (allowed : s.Permits consumer a) (inMemory : e.InMemory) (answers : e.Answers a result e') :
    InOrder consumer (s.after ⟨a, result⟩) (l.note ⟨e, .deed ⟨a, result⟩⟩) e' := by
  cases allowed with
  | reclaim => exact acc.reclaim inMemory answers
  | lease => exact acc.lease inMemory answers
  | readClock => exact acc.readClock answers
  | emit =>
    have done := answers.performed rfl
    cases done
    exact acc.of_same rfl rfl
  | offer => exact acc.offer answers
  | ack => exact acc.ack inMemory answers
  | noteDelivery => exact acc.noteDelivery answers
  | noteFailure => exact acc.noteFailure answers

end InOrder

theorem stored_subset (h : List Moment) (m : Moment) :
    (ledger h).stored ⊆ (ledger (h ++ [m])).stored := by
  rw [ledger_snoc]
  unfold Ledger.note
  split
  · exact List.subset_append_left _ _
  · exact List.Subset.refl _
  · exact List.Subset.refl _
  · exact List.Subset.refl _
  · exact List.Subset.refl _
  · exact List.Subset.refl _

/-- The record `id` is lent out again only after its last loan has ended and was taken back. -/
structure Loans (id : EnvelopeId) (h : List Moment) (e : Engine) : Prop where
  known : ∀ m ∈ h, ∀ t, m.Lends id t → ∃ x, (id, x) ∈ (ledger h).stored
  last : ∀ past m mid t, h = past ++ m :: mid → m.Lends id t →
    (∃ z ∈ mid, z.Reclaims t) ∨ e.inbox.Tied id t
  apart : ∀ past m mid m' future t t', h = past ++ m :: (mid ++ m' :: future) → m.Lends id t →
    m'.Lends id t' → ∃ z ∈ mid, z.Reclaims t

namespace Loans

variable {id : EnvelopeId} {m : Moment}

theorem start (id : EnvelopeId) (e : Engine) : Loans id [] e where
  known := List.forall_mem_nil _
  last past m mid t split := by simp at split
  apart past m mid m' future t t' split := by simp at split

theorem of_same (loans : Loans id h e) (same : e'.inbox = e.inbox) : Loans id h e' where
  known := loans.known
  last past m mid t split lends := by
    rw [same]
    exact loans.last past m mid t split lends
  apart := loans.apart

/-- One more moment: a loan ties the record; a tied one is not lent out, and stays tied unless it is
taken back when its time has come. -/
theorem snoc (loans : Loans id h m.before)
    (ties : ∀ t, m.Lends id t → (∃ x, (id, x) ∈ (ledger h).stored) ∧ e'.inbox.Tied id t)
    (keeps : ∀ t, (∃ x, (id, x) ∈ (ledger h).stored) → m.before.inbox.Tied id t →
      (∀ t', ¬ m.Lends id t') ∧ (m.Reclaims t ∨ e'.inbox.Tied id t)) :
    Loans id (h ++ [m]) e' where
  known m₀ hm t lends := by
    have ⟨x, hx⟩ : ∃ x, (id, x) ∈ (ledger h).stored := by
      rcases List.mem_append.1 hm with hm | hm
      · exact loans.known m₀ hm t lends
      · obtain rfl := List.mem_singleton.1 hm
        exact (ties t lends).1
    exact ⟨x, stored_subset h m hx⟩
  last past m₀ mid t split lends := by
    -- the loan is the new moment itself, or the new moment comes after it
    rcases List.eq_nil_or_concat' mid with rfl | ⟨mid, z, rfl⟩
    · obtain ⟨rfl, same⟩ := List.append_inj' split rfl
      obtain rfl := List.head_eq_of_cons_eq same
      exact Or.inr (ties t lends).2
    · rw [← List.cons_append, ← List.append_assoc] at split
      obtain ⟨rfl, same⟩ := List.append_inj' split rfl
      obtain rfl := List.head_eq_of_cons_eq same
      rcases loans.last past m₀ mid t rfl lends with ⟨z, hz, reclaims⟩ | tied
      · exact Or.inl ⟨z, List.mem_append_left _ hz, reclaims⟩
      · have known := loans.known m₀ (List.mem_append_right _ List.mem_cons_self) t lends
        refine (keeps t known tied).2.imp_left fun reclaims => ?_
        exact ⟨m, List.mem_append_right _ (List.mem_singleton_self _), reclaims⟩
  apart past m₀ mid m' future t t' split lends again := by
    -- only where the new moment is the second loan is there anything to prove
    rcases List.eq_nil_or_concat' future with rfl | ⟨future, z, rfl⟩
    · rw [← List.cons_append, ← List.append_assoc] at split
      obtain ⟨rfl, same⟩ := List.append_inj' split rfl
      obtain rfl := List.head_eq_of_cons_eq same
      have known := loans.known m₀ (List.mem_append_right _ List.mem_cons_self) t lends
      exact (loans.last past m₀ mid t rfl lends).resolve_right fun tied =>
        (keeps t known tied).1 t' again
    · rw [← List.cons_append, ← List.append_assoc, ← List.cons_append, ← List.append_assoc] at split
      obtain ⟨rfl, same⟩ := List.append_inj' split rfl
      exact loans.apart past m₀ mid m' future t t' (List.append_assoc _ _ _) lends again

/-- A moment that lends nothing out. -/
theorem quiet (loans : Loans id h m.before) (unlent : ∀ t, ¬ m.Lends id t)
    (keeps : ∀ t, (∃ x, (id, x) ∈ (ledger h).stored) → m.before.inbox.Tied id t →
      m.Reclaims t ∨ e'.inbox.Tied id t) : Loans id (h ++ [m]) e' :=
  loans.snoc (fun t lends => (unlent t lends).elim) fun t known tied =>
    ⟨unlent, keeps t known tied⟩

theorem unlent {a : Action} {result : a.Reply}
    (other : ∀ consumer batch visibility, a ≠ .leaseEnvelopes consumer batch visibility)
    (t : Timestamp) : ¬ Moment.Lends id t ⟨e, .deed ⟨a, result⟩⟩ := by
  rintro ⟨consumer, batch, visibility, rs, r, hw, -⟩
  cases hw
  exact other _ _ _ rfl

theorem reclaim {result : Except Failure Nat} (loans : Loans id h e) (inMemory : e.InMemory)
    (answers : e.Answers .reclaimEnvelopes result e') :
    Loans id (h ++ [⟨e, .deed ⟨.reclaimEnvelopes, result⟩⟩]) e' := by
  obtain ⟨⟨n, rfl⟩, inbox, -⟩ := answers.reclaimed inMemory
  refine loans.quiet (unlent (by simp)) fun t _ tied => ?_
  rw [inbox]
  exact (tied.reclaim e.now).imp_left fun due => ⟨⟨n, rfl⟩, due⟩

theorem prune {cutoff : Timestamp} {result : Except Failure Nat} (loans : Loans id h e)
    (inMemory : e.InMemory) (answers : e.Answers (.pruneEnvelopes cutoff) result e') :
    Loans id (h ++ [⟨e, .deed ⟨.pruneEnvelopes cutoff, result⟩⟩]) e' := by
  obtain ⟨inbox, -⟩ := answers.pruned inMemory
  refine loans.quiet (unlent (by simp)) fun t _ tied => Or.inr ?_
  rw [inbox]
  exact tied.prune cutoff

theorem append {x : Envelope} {result : Except Failure Bool} (loans : Loans id h e)
    (inMemory : e.InMemory) (new : ∀ x, (⟨e.ids.next⟩, x) ∉ (ledger h).stored)
    (answers : e.Answers (.appendEnvelope x) result e') :
    Loans id (h ++ [⟨e, .deed ⟨.appendEnvelope x, result⟩⟩]) e' := by
  obtain ⟨-, inbox, -⟩ := answers.appended inMemory
  refine loans.quiet (unlent (by simp)) fun t known tied => Or.inr ?_
  rw [inbox]
  intro r hr
  rw [Inbox.get?_append_known new x known] at hr
  exact tied r hr

theorem lease {batch : Nat} {visibility : Span} {result : Except Failure (List InboxRecord)}
    (loans : Loans id h e) (acc : InOrder consumer s (ledger h) e) (inMemory : e.InMemory)
    (answers : e.Answers (.leaseEnvelopes consumer batch visibility) result e') :
    Loans id (h ++ [⟨e, .deed ⟨.leaseEnvelopes consumer batch visibility, result⟩⟩]) e' := by
  obtain ⟨rfl, inbox, -⟩ := answers.lent inMemory
  have sound := acc.stocked.sound
  refine loans.snoc (fun t lends => ?_) fun t _ tied => ?_
  · obtain ⟨_, _, _, rs, r, hw, hr, rfl, until_⟩ := lends
    cases hw
    obtain ⟨r₀, hr₀, -⟩ := sound.mem_lease hr
    rw [inbox]
    exact ⟨⟨_, acc.stocked.known _ r₀ hr₀⟩, sound.lends_lease.tied hr until_⟩
  · obtain ⟨others, tied⟩ := tied.lease sound
    rw [inbox]
    refine ⟨?_, Or.inr tied⟩
    rintro t' ⟨_, _, _, rs, r, hw, hr, hid, -⟩
    cases hw
    exact others r hr hid

theorem ack {result : Except Failure Unit} (loans : Loans id h e)
    (acc : InOrder consumer (.applied now r rs) l e) (inMemory : e.InMemory)
    (answers : e.Answers (.ackEnvelope r.id consumer) result e') :
    Loans id (h ++ [⟨e, .deed ⟨.ackEnvelope r.id consumer, result⟩⟩]) e' := by
  obtain ⟨-, inbox, -⟩ := answers.acked inMemory acc.lent.ack
  refine loans.quiet (unlent (by simp)) fun t _ tied => Or.inr ?_
  rw [inbox]
  exact tied.ack r

/-- What leaves the inbox alone leaves the loans as they are. -/
theorem idle {a : Action} {result : a.Reply} (loans : Loans id h e)
    (answers : e.Answers a result e') (apart : a.store? ≠ some .inbox) :
    Loans id (h ++ [⟨e, .deed ⟨a, result⟩⟩]) e' := by
  refine loans.quiet (unlent ?_) fun t _ tied => Or.inr ?_
  · rintro consumer batch visibility rfl
    exact apart rfl
  · rw [answers.kept.inbox apart]
    exact tied

theorem act {a : Action} {result : a.Reply} (loans : Loans id h e)
    (acc : InOrder consumer s (ledger h) e) (allowed : s.Permits consumer a)
    (inMemory : e.InMemory) (answers : e.Answers a result e') :
    Loans id (h ++ [⟨e, .deed ⟨a, result⟩⟩]) e' := by
  cases allowed with
  | reclaim => exact loans.reclaim inMemory answers
  | lease => exact loans.lease acc inMemory answers
  | ack => exact loans.ack acc inMemory answers
  | readClock | emit | offer | noteDelivery | noteFailure => exact loans.idle answers nofun

end Loans

namespace Dispatcher

theorem shift_accounted (consumer : String) :
    (shift consumer).Accounted (dispatch consumer) (.batch []) Dispatch.Ends fun s h e =>
      InOrder consumer s (ledger h) e ∧ ∀ id, Loans id h e where
  starts := fun ⟨inbox, stats⟩ => ⟨.start inbox stats, fun id => .start id _⟩
  cycle := by
    rintro p ⟨cfg, rfl⟩
    exact dispatch_runCycle cfg consumer
  act := by
    rintro s h e e' a r ⟨acc, loans⟩ allowed inMemory answers
    rw [ledger_snoc]
    exact ⟨acc.act allowed inMemory answers,
      fun id => (loans id).act acc allowed inMemory answers⟩
  finish := by
    rintro s h e r ⟨acc, loans⟩ (rfl | rfl) -
    · exact ⟨acc, loans⟩
    · exact absurd rfl acc.sure
  beside := by
    rintro s h e e' idle v ⟨acc, loans⟩ rest ⟨inMemory, allowed⟩ meets
    cases meets with
    | enqueued => exact allowed.elim
    | @deed a r _ own done =>
      have answers : e.Answers a r e' := Or.inr ⟨own, done⟩
      rw [ledger_snoc]
      cases a with
      | appendEnvelope =>
        have new : ∀ x, (⟨e.ids.next⟩, x) ∉ (ledger h).stored :=
          fun x old => allowed (List.mem_map_of_mem old)
        exact ⟨acc.append inMemory new answers, fun id => (loans id).append inMemory new answers⟩
      | reclaimEnvelopes =>
        obtain rfl := rest allowed
        exact ⟨acc.reclaim inMemory answers, fun id => (loans id).reclaim inMemory answers⟩
      | pruneEnvelopes =>
        obtain rfl := rest allowed
        exact ⟨acc.prune inMemory answers, fun id => (loans id).prune inMemory answers⟩
      | _ => exact allowed.elim
  elsewhere := fun ⟨acc, loans⟩ ⟨inbox, stats⟩ =>
    ⟨acc.of_same inbox stats, fun id => (loans id).of_same inbox⟩

/-- The delivery of envelopes. What was put into the inbox stays there, not acknowledged, until the
producer takes it. It takes nothing twice, and what it took is acknowledged when the cycle ends.
Whatever was lent out is lent out again only after a look at the clock has found the loan over. At
the end of each cycle the figures count the acknowledgements and the failures and give the longest
wait. -/
theorem result_delivery {c : Option (Attempt Nat)} (run : (shift consumer).Run h e c) :
    (∀ id x, (id, x) ∈ (ledger h).stored → some id ∉ (ledger h).taken →
      ∃ r, e.inbox.records.get? id = some r ∧ r.envelope = x ∧ r.state ≠ .acked) ∧
    (ledger h).taken.Nodup ∧
    (∀ past m mid m' future id t t', h = past ++ m :: (mid ++ m' :: future) → m.Lends id t →
      m'.Lends id t' → ∃ z ∈ mid, z.Reclaims t) ∧
    (c = none →
      (ledger h).taken = (ledger h).acked.map some ∧
      e.stats.applied = (ledger h).acked.length ∧ e.stats.applyFailures = (ledger h).failures ∧
      e.stats.violations ≤ e.stats.applied ∧
      e.stats.maxLatencyMs = (ledger h).latencies.foldl max 0) := by
  obtain ⟨s, ⟨acc, loans⟩, idle, -⟩ := (shift_accounted consumer).run run
  refine ⟨fun id x hx open_ => ?_, ?_, fun past m mid m' future id t t' split => ?_, ?_⟩
  · refine acc.stocked.kept id x hx fun settled => open_ ?_
    rw [acc.taken]
    exact List.mem_map_of_mem (List.mem_append_left _ settled)
  · rw [acc.taken]
    exact List.Pairwise.map some (fun _ _ => mt Option.some.inj) acc.once
  · exact (loans id).apart past m mid m' future t t' split
  · intro ended
    obtain rfl := idle ended
    obtain ⟨applied, failures, violations, latency⟩ := acc.figures
    refine ⟨?_, applied, failures, violations, latency.symm⟩
    rw [acc.taken]
    exact congrArg (List.map some) (List.append_nil _)

theorem reached_append {s : Scene} (h : s.Reached (shift consumer)) (inMemory : s.engine.InMemory)
    (new : ⟨s.engine.ids.next⟩ ∉ (ledger s.past).stored.map Prod.fst) (x : Envelope) :
    (s.tend (.appendEnvelope x)).Reached (shift consumer) := h.tend rfl fun _ => ⟨inMemory, new⟩

theorem reached_sleep {s : Scene} (h : s.Reached (shift consumer)) (ms : Nat) :
    (s.sleep ms).Reached (shift consumer) := Shift.Run.elsewhere h ⟨rfl, rfl⟩

/-- A whole cycle of the usual dispatcher; nobody outside is asked. -/
def cycled (s : Scene) : Scene :=
  (s.start (runCycle Config.usual.dispatcher "d-1")).turns (fun _ => none) 12

theorem reached_cycled {s : Scene} (h : s.Reached (shift "d-1")) (idle : s.cycle.isNone = true) :
    (cycled s).Reached (shift "d-1") := (h.start idle ⟨_, rfl⟩).turns _ _

/-- The producer does not take the first envelope that it is offered. -/
def fussyProducer : Scene :=
  ⟨[], .create .usual .epoch { Surroundings.quiet with producer := [false] }, none⟩

def onceRefused : Scene :=
  cycled (fussyProducer.tend
    (.appendEnvelope (.ofJob (Queue.sampleJob 1 "post-1") .success .epoch)))

/-- While that envelope is on loan, another one comes and is taken. -/
def overtaken : Scene :=
  cycled ((onceRefused.tend
    (.appendEnvelope (.ofJob (Queue.sampleJob 2 "post-2") .success .epoch))).sleep 4000)

/-- When the loan is over, the envelope is offered again. -/
def offeredAgain : Scene := cycled (overtaken.sleep 30000)

theorem offeredAgain_reached : offeredAgain.Reached (shift "d-1") := by
  have fussy : fussyProducer.Reached (shift "d-1") := Shift.Run.start ⟨rfl, rfl⟩
  have refused : onceRefused.Reached (shift "d-1") :=
    reached_cycled (reached_append fussy (by decide) (by decide +kernel) _) (by decide +kernel)
  have overtaken_ : overtaken.Reached (shift "d-1") := by
    refine reached_cycled (reached_sleep (reached_append refused ?_ ?_ _) _) ?_
    all_goals decide +kernel
  exact reached_cycled (reached_sleep overtaken_ _) (by decide +kernel)

/-- The envelope that was refused is taken after the other one, half a minute later. -/
theorem result_delivery_offeredAgain :
    (ledger offeredAgain.past).taken.Nodup ∧
    (ledger offeredAgain.past).taken =
      [some ⟨onceRefused.engine.ids.next⟩, some ⟨fussyProducer.engine.ids.next⟩] ∧
    (ledger offeredAgain.past).taken = (ledger offeredAgain.past).acked.map some ∧
    offeredAgain.engine.stats.applied = 2 ∧ offeredAgain.engine.stats.applyFailures = 1 ∧
    offeredAgain.engine.stats.maxLatencyMs = 34000 := by
  have run : (shift "d-1").Run offeredAgain.past offeredAgain.engine none := by
    have idle : offeredAgain.cycle = none := Option.isNone_iff_eq_none.1 (by decide +kernel)
    exact idle ▸ (offeredAgain_reached : Shift.Run _ _ _ offeredAgain.cycle)
  obtain ⟨-, once, -, ended⟩ := result_delivery run
  obtain ⟨acked, applied, failures, -, latency⟩ := ended rfl
  exact ⟨once, by decide +kernel, acked, applied.trans (by decide +kernel),
    failures.trans (by decide +kernel), latency.trans (by decide +kernel)⟩

end Dispatcher

end Courier
