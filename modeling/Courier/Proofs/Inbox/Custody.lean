import Courier.Proofs.Inbox.Run

/-! A record in the hands of a consumer stays there: from the lease that returned it to the
acknowledgement by this consumer, or to the reclaim that found the lease run out. Once acknowledged
it stays as it is until a prune forgets it. With that the account of an inbox is complete. -/

namespace Courier.Inbox

/-- The record is in the hands of the consumer until `t`. -/
def Holds (s : Inbox) (consumer : String) (id : EnvelopeId) (t : Timestamp) : Prop :=
  ∃ r, s.records.get? id = some r ∧ HeldBy consumer r ∧ r.leaseUntil = some t

namespace Entry

/-- A lease that returned the record to the consumer until `t`. -/
def Leases (e : Entry) (consumer : String) (id : EnvelopeId) (t : Timestamp) : Prop :=
  ∃ batch visibility rs, e.call = .lease consumer batch visibility ∧ e.answer = .ok (.records rs) ∧
    (∃ r ∈ rs, r.id = id) ∧ t = e.now.add visibility

/-- The call leaves a record where it is that the consumer holds until `t`: no lease returns it, no
reclaim finds it expired, and an acknowledgement comes from another consumer and is refused. -/
structure Spares (e : Entry) (id : EnvelopeId) (consumer : String) (t : Timestamp) : Prop where
  unreturned : e.delivers id = false
  refused : ∀ other, e.call = .ack id other →
    other ≠ consumer ∧ e.answer = .error (.envelopeNotLeasedBy id other)
  early : e.call = .reclaim → ¬ t ≤ e.now

end Entry

namespace Entry

variable {e : Entry} {id : EnvelopeId} {r : InboxRecord}

/-- One more call while a record is held: it stays where it is, its holder acknowledges it, or it
is taken back because the time is over. -/
theorem keeps_held (sound : e.before.Sound) {consumer : String} {t : Timestamp}
    (holds : e.before.Holds consumer id t) (unused : ∀ x, e.call ≠ .append id x) :
    (e.after.Holds consumer id t ∧ e.Spares id consumer t) ∨
      (e.call = .ack id consumer ∧ e.answer = .ok .nothing ∧
        ∃ r, e.after.records.get? id = some r ∧ r.state = .acked) ∨
      (e.call = .reclaim ∧ t ≤ e.now ∧
        ∃ r, e.after.records.get? id = some r ∧ r.state = .pending) := by
  obtain ⟨r, hr, held, expiry⟩ := holds
  have fate : Fate e.now r e.call e.answer (e.after.records.get? id) := sound.fate hr e.now unused
  obtain rfl : r.id = id := sound.keyed id r hr
  generalize call : e.call = c, answer : e.answer = a, after : e.after.records.get? r.id = o at fate
  cases fate with
  | untouched none refused early =>
    refine Or.inl ⟨⟨r, after, held, expiry⟩, ?_, ?_, ?_⟩
    · exact delivers_eq_false (answer ▸ none)
    · intro other hc
      rw [answer]
      exact ⟨fun same => (refused other (call ▸ hc)).1 (same ▸ held),
        (refused other (call ▸ hc)).2⟩
    · intro hc due
      have := early (call ▸ hc)
      rw [isExpired_iff.2 ⟨held.1, t, expiry, due⟩] at this
      cases this
  | leased waits =>
    rw [held.1] at waits
    cases waits
  | acked other =>
    obtain rfl := Option.some.inj (held.2.symm.trans other.2)
    exact Or.inr (Or.inl ⟨rfl, rfl, _, rfl, rfl⟩)
  | requeued expired =>
    obtain ⟨-, t', expiry', due⟩ := isExpired_iff.1 expired
    obtain rfl := Option.some.inj (expiry.symm.trans expiry')
    exact Or.inr (Or.inr ⟨rfl, due, _, rfl, rfl⟩)
  | pruned prunable =>
    have acked := (isPrunable_iff.1 prunable).1
    rw [held.1] at acked
    cases acked

/-- What a lease returns is held from then on. -/
theorem Leases.holds {consumer : String} {t : Timestamp} (leases : e.Leases consumer id t)
    (sound : e.before.Sound) : e.after.Holds consumer id t := by
  obtain ⟨now, c, s⟩ := e
  obtain ⟨batch, visibility, rs, rfl, answer, ⟨r, hr, hid⟩, rfl⟩ := leases
  obtain rfl : (s.lease consumer batch visibility now).1 = rs :=
    Answer.records.inj (Except.ok.inj answer)
  rcases sound.get?_lease consumer batch visibility now id with ⟨r₀, -, -, -, hget⟩ | ⟨none, -⟩
  · exact ⟨_, hget, ⟨rfl, rfl⟩, rfl⟩
  · exact absurd hid (none r hr)

end Entry

/-- How it stands with a record that a lease returned to the consumer until `t`, after the calls `h`
that followed: the consumer has held it all the time, or did until it acknowledged the record, or
until a reclaim not before `t` took it back. -/
inductive Custody (s : Inbox) (consumer : String) (id : EnvelopeId) (t : Timestamp)
    (h : List Entry) : Prop where
  | lasts (holds : s.Holds consumer id t) (spared : ∀ e ∈ h, e.Spares id consumer t)
  | acked (during : List Entry) (z : Entry) (later : List Entry) (split : h = during ++ z :: later)
      (spared : ∀ e ∈ during, e.Spares id consumer t) (holds : z.before.Holds consumer id t)
      (call : z.call = .ack id consumer) (answer : z.answer = .ok .nothing)
      (done : ∃ r, z.after.records.get? id = some r ∧ r.state = .acked)
  | expired (during : List Entry) (z : Entry) (later : List Entry)
      (split : h = during ++ z :: later) (spared : ∀ e ∈ during, e.Spares id consumer t)
      (holds : z.before.Holds consumer id t) (call : z.call = .reclaim) (due : t ≤ z.now)
      (waits : ∃ r, z.after.records.get? id = some r ∧ r.state = .pending)

theorem Custody.snoc {consumer : String} {id : EnvelopeId} {t : Timestamp} {h : List Entry}
    {e : Entry} (custody : Custody e.before consumer id t h) (sound : e.before.Sound)
    (unused : ∀ x, e.call ≠ .append id x) : Custody e.after consumer id t (h ++ [e]) := by
  cases custody with
  | lasts holds spared =>
    rcases Entry.keeps_held sound holds unused with ⟨holds', spares⟩ | ⟨call, answer, done⟩ |
      ⟨call, due, waits⟩
    · refine .lasts holds' fun z hz => ?_
      rcases List.mem_append.1 hz with hz | hz
      · exact spared z hz
      · rw [List.mem_singleton.1 hz]
        exact spares
    · exact .acked h e [] rfl spared holds call answer done
    · exact .expired h e [] rfl spared holds call due waits
  | acked during z later split spared holds call answer done =>
    exact .acked during z (later ++ [e]) (by simp [split]) spared holds call answer done
  | expired during z later split spared holds call due waits =>
    exact .expired during z (later ++ [e]) (by simp [split]) spared holds call due waits

section

variable {pre post : List Entry} {e : Entry} {s : Inbox} {id : EnvelopeId} {r : InboxRecord}

/-- The id of a record is not drawn again. -/
theorem Run.unused (run : Run (pre ++ post) s) (hid : id ∈ given pre) :
    ∀ z ∈ post, ∀ x, z.call ≠ .append id x := by
  intro z hz x call
  obtain ⟨during, later, rfl⟩ := List.append_of_mem hz
  rw [← List.append_assoc] at run
  refine run.before.2 id x call ?_
  rw [given, List.filterMap_append]
  exact List.mem_append_left _ hid

theorem Run.custody (run : Run (pre ++ e :: post) s) {consumer : String} {t : Timestamp}
    (leases : e.Leases consumer id t) : Custody s consumer id t post := by
  have old : id ∈ given pre := by
    obtain ⟨_, _, rs, -, answer, ⟨r, hr, hid⟩, -⟩ := leases
    obtain ⟨r₀, hr₀, -⟩ := run.before.1.orderly.sound.delivers (Entry.delivers_eq_true answer hr hid)
    exact run.before.1.orderly.known id r₀ hr₀
  induction post using List.reverseRecOn generalizing s with
  | nil =>
    obtain ⟨before, -, rfl⟩ := run.of_snoc
    exact .lasts (leases.holds before.orderly.sound) (List.forall_mem_nil _)
  | append_singleton post z ih =>
    have unused := run.unused old z (by simp)
    obtain ⟨before, -, rfl⟩ := run.of_cons_snoc
    exact (ih before).snoc before.orderly.sound unused

end

theorem Sound.mem_seen_iff {s : Inbox} (h : s.Sound) (job : JobId) :
    job ∈ s.seen ↔ ∃ id r, s.records.get? id = some r ∧ r.envelope.jobId = job := by
  have count := h.counted job
  have stored : 0 < s.recordsFor job ↔
      ∃ id r, s.records.get? id = some r ∧ r.envelope.jobId = job := by
    simp only [recordsFor, List.countP_pos_iff, Table.mem_values_iff, decide_eq_true_eq]
    constructor
    · rintro ⟨r, ⟨id, hr⟩, same⟩
      exact ⟨id, r, hr, same⟩
    · rintro ⟨id, r, hr, same⟩
      exact ⟨r, ⟨id, hr⟩, same⟩
  rw [← stored, count]
  split_ifs with seen
  · exact ⟨fun _ => Nat.one_pos, fun _ => seen⟩
  · exact ⟨fun hs => absurd hs seen, fun pos => absurd pos (Nat.lt_irrefl 0)⟩

end Courier.Inbox
