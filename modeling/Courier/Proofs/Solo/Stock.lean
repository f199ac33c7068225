import Courier.Proofs.Inbox

/-! The stock of an inbox, set against two lists: the envelopes that it took in, under the ids they
were given, and the ids that were acknowledged. What was taken in and not acknowledged is there;
what is there was taken in. -/

namespace Courier.Inbox

structure Stocked (stored : List (EnvelopeId × Envelope)) (acked : List EnvelopeId) (s : Inbox) :
    Prop where
  sound : s.Sound
  known : ∀ id r, s.records.get? id = some r → (id, r.envelope) ∈ stored
  kept : ∀ id x, (id, x) ∈ stored → id ∉ acked →
    ∃ r, s.records.get? id = some r ∧ r.envelope = x ∧ r.state ≠ .acked
  done : ∀ id r, s.records.get? id = some r → id ∈ acked → r.state = .acked
  real : ∀ id ∈ acked, ∃ x, (id, x) ∈ stored

/-- `consumer` has these records in its hands as they are stored. -/
structure Lends (s : Inbox) (consumer : String) (rs : List InboxRecord) : Prop where
  leased : ∀ r ∈ rs, s.records.get? r.id = some r ∧ r.state = .leased ∧ r.leasedBy = some consumer
  nodup : (rs.map InboxRecord.id).Nodup

/-- The record under `id`, if there is one, is on loan until `t` or done with. -/
def Tied (s : Inbox) (id : EnvelopeId) (t : Timestamp) : Prop :=
  ∀ r, s.records.get? id = some r → r.state = .acked ∨ (r.state = .leased ∧ r.leaseUntil = some t)

variable {stored : List (EnvelopeId × Envelope)} {acked : List EnvelopeId} {s s' : Inbox}
  {consumer : String} {id fresh : EnvelopeId} {r : InboxRecord} {rs : List InboxRecord}
  {t now : Timestamp} {x : Envelope}

theorem Stocked.empty : Stocked [] [] .empty where
  sound := sound_empty
  known _ _ h := by cases h
  kept _ _ h := by cases h
  done _ _ h := by cases h
  real _ h := by cases h

theorem lends_nil (s : Inbox) (consumer : String) : s.Lends consumer [] :=
  ⟨List.forall_mem_nil _, List.nodup_nil⟩

/-- What is in somebody's hands is not acknowledged. -/
theorem Stocked.not_acked (h : Stocked stored acked s) (lent : s.Lends consumer rs) (hr : r ∈ rs) :
    r.id ∉ acked := by
  obtain ⟨hget, leased, -⟩ := lent.leased r hr
  intro settled
  rw [h.done _ _ hget settled] at leased
  cases leased

/-- Records may be rewritten as long as they keep their envelopes and are not acknowledged. -/
theorem Stocked.rewritten (h : Stocked stored acked s) (sound : s'.Sound)
    (same : ∀ id, s'.records.get? id = s.records.get? id ∨ ∃ r r', s.records.get? id = some r ∧
      s'.records.get? id = some r' ∧ r'.envelope = r.envelope ∧ r.state ≠ .acked ∧
      r'.state ≠ .acked) : Stocked stored acked s' where
  sound := sound
  known id r' hr' := by
    rcases same id with he | ⟨r, r'', hr, hr'', envelope, -⟩
    · exact h.known id r' (he ▸ hr')
    · obtain rfl := Option.some.inj (hr''.symm.trans hr')
      exact envelope ▸ h.known id r hr
  kept id x hx open_ := by
    obtain ⟨r, hr, rfl, state⟩ := h.kept id x hx open_
    rcases same id with he | ⟨r₀, r', hr₀, hr', envelope, -, state'⟩
    · exact ⟨r, he ▸ hr, rfl, state⟩
    · obtain rfl := Option.some.inj (hr₀.symm.trans hr)
      exact ⟨r', hr', envelope, state'⟩
  done id r' hr' settled := by
    rcases same id with he | ⟨r, r'', hr, -, -, state, -⟩
    · exact h.done id r' (he ▸ hr') settled
    · exact absurd (h.done id r hr settled) state
  real := h.real

section Append

variable (h : Stocked stored acked s) (new : ∀ x, (fresh, x) ∉ stored)

include h new

theorem Stocked.unused : s.records.get? fresh = none := by
  cases hr : s.records.get? fresh with
  | none => rfl
  | some r => exact absurd (h.known _ r hr) (new _)

/-- An envelope is taken in, or it is not needed. -/
theorem Stocked.append (x : Envelope) : Stocked
    (if (s.append fresh x).1 then stored ++ [(fresh, x)] else stored) acked
    (s.append fresh x).2 := by
  by_cases hx : x.jobId ∈ s.seen
  · rw [append_of_seen hx]
    exact h
  · have sound : (s.append fresh x).2.Sound :=
      h.sound.change (fun _ => h.unused new) (.stored hx)
    rw [append_of_unseen hx] at sound ⊢
    rw [if_pos rfl]
    have get (id : EnvelopeId) :
        (s.records.insert fresh ⟨fresh, x, .pending, none, none, 0⟩).get? id = if id = fresh
          then some ⟨fresh, x, .pending, none, none, 0⟩ else s.records.get? id :=
      Table.get?_insert _ _ _ _
    refine ⟨sound, fun id r hr => ?_, fun id y hy open_ => ?_, fun id r hr settled => ?_, ?_⟩
    · rw [get] at hr
      split_ifs at hr with hid
      · cases hr
        exact List.mem_append_right _ (by rw [hid]; exact List.mem_singleton_self _)
      · exact List.mem_append_left _ (h.known id r hr)
    · rcases List.mem_append.1 hy with old | own
      · obtain ⟨r, hr, hxy, state⟩ := h.kept id y old open_
        have hid : id ≠ fresh := by
          rintro rfl
          exact new _ old
        exact ⟨r, by rw [get, if_neg hid]; exact hr, hxy, state⟩
      · cases List.mem_singleton.1 own
        exact ⟨_, by rw [get, if_pos rfl], rfl, by simp⟩
    · rw [get] at hr
      split_ifs at hr with hid
      · obtain ⟨y, hy⟩ := h.real id settled
        exact absurd (hid ▸ hy) (new y)
      · exact h.done id r hr settled
    · intro id settled
      obtain ⟨y, hy⟩ := h.real id settled
      exact ⟨y, List.mem_append_left _ hy⟩

omit h in
theorem get?_append_known (x : Envelope) (known : ∃ y, (id, y) ∈ stored) :
    (s.append fresh x).2.records.get? id = s.records.get? id := by
  refine get?_append_of_ne ?_ x
  rintro rfl
  obtain ⟨y, hy⟩ := known
  exact new y hy

theorem Lends.append (lent : s.Lends consumer rs) (x : Envelope) :
    (s.append fresh x).2.Lends consumer rs where
  leased r hr := by
    obtain ⟨hget, leased⟩ := lent.leased r hr
    exact ⟨(get?_append_known new x ⟨_, h.known _ r hget⟩).trans hget, leased⟩
  nodup := lent.nodup

end Append

section Lease

variable {batch : Nat} {visibility : Span}

theorem Stocked.lease (h : Stocked stored acked s) :
    Stocked stored acked (s.lease consumer batch visibility now).2 := by
  refine h.rewritten (h.sound.lease consumer batch visibility now) fun id => ?_
  rcases h.sound.get?_lease consumer batch visibility now id with ⟨r, hr, waits, -, hr'⟩ | ⟨-, he⟩
  · exact Or.inr ⟨r, _, hr, hr', rfl, by rw [waits]; nofun, nofun⟩
  · exact Or.inl he

/-- The consumer has in hand what the lease returns. -/
theorem Sound.lends_lease (h : s.Sound) : (s.lease consumer batch visibility now).2.Lends consumer
    (s.lease consumer batch visibility now).1 where
  leased r hr := by
    obtain ⟨r₀, hr₀, -, rfl⟩ := h.mem_lease hr
    rcases h.get?_lease consumer batch visibility now r₀.id with ⟨r₁, hr₁, -, -, hget⟩ | ⟨ne, -⟩
    · obtain rfl := Option.some.inj (hr₁.symm.trans hr₀)
      exact ⟨hget, rfl, rfl⟩
    · exact (ne _ hr rfl).elim
  nodup := h.lease_nodup consumer batch visibility now

/-- A lease returns no record that is tied. -/
theorem Tied.lease (h : s.Tied id t) (sound : s.Sound) :
    (∀ r ∈ (s.lease consumer batch visibility now).1, r.id ≠ id) ∧
      (s.lease consumer batch visibility now).2.Tied id t := by
  rcases sound.get?_lease consumer batch visibility now id with ⟨r, hr, waits, -⟩ | ⟨ne, he⟩
  · rcases h r hr with state | ⟨state, -⟩
    · rw [waits] at state
      cases state
    · rw [waits] at state
      cases state
  · exact ⟨ne, fun r hr => h r (he ▸ hr)⟩

theorem Lends.tied (h : s.Lends consumer rs) (hr : r ∈ rs) (until_ : r.leaseUntil = some t) :
    s.Tied r.id t := by
  obtain ⟨hget, leased, -⟩ := h.leased r hr
  intro r' hr'
  obtain rfl := Option.some.inj (hget.symm.trans hr')
  exact Or.inr ⟨leased, until_⟩

end Lease

section Ack

variable (lent : s.Lends consumer (r :: rs))

include lent

/-- Whoever has a record in hand is not refused to acknowledge it. -/
theorem Lends.ack : s.ack r.id consumer =
    .ok (s.put { r with state := .acked, leasedBy := none, leaseUntil := none }) := by
  obtain ⟨hget, leased, holder⟩ := lent.leased r List.mem_cons_self
  simp [Inbox.ack, hget, leased, holder]

theorem Lends.of_ack :
    (s.put { r with state := .acked, leasedBy := none, leaseUntil := none }).Lends consumer rs where
  leased r' hr' := by
    have other : r'.id ≠ r.id := by
      intro same
      exact (List.nodup_cons.1 lent.nodup).1 (same ▸ List.mem_map_of_mem hr')
    obtain ⟨hget, leased⟩ := lent.leased r' (List.mem_cons_of_mem _ hr')
    exact ⟨by rw [get?_put, if_neg other]; exact hget, leased⟩
  nodup := (List.nodup_cons.1 lent.nodup).2

theorem Stocked.ack (h : Stocked stored acked s) : Stocked stored (acked ++ [r.id])
    (s.put { r with state := .acked, leasedBy := none, leaseUntil := none }) := by
  obtain ⟨hget, -, -⟩ := lent.leased r List.mem_cons_self
  refine ⟨h.sound.put hget rfl, fun id r' hr' => ?_, fun id x hx open_ => ?_,
    fun id r' hr' settled => ?_, fun id settled => ?_⟩
  · rw [get?_put] at hr'
    split_ifs at hr' with hid
    · cases hr'
      rw [hid]
      exact h.known _ r hget
    · exact h.known id r' hr'
  · rw [List.mem_append, List.mem_singleton, not_or] at open_
    obtain ⟨r', hr', hx', state⟩ := h.kept id x hx open_.1
    exact ⟨r', by rw [get?_put, if_neg open_.2]; exact hr', hx', state⟩
  · rw [get?_put] at hr'
    split_ifs at hr' with hid
    · cases hr'
      rfl
    · rw [List.mem_append, List.mem_singleton] at settled
      exact h.done id r' hr' (settled.resolve_right hid)
  · rw [List.mem_append, List.mem_singleton] at settled
    rcases settled with settled | rfl
    · exact h.real id settled
    · exact ⟨_, h.known _ r hget⟩

omit lent

theorem Tied.ack (h : s.Tied id t) (r : InboxRecord) :
    (s.put { r with state := .acked, leasedBy := none, leaseUntil := none }).Tied id t := by
  intro r' hr'
  rw [get?_put] at hr'
  split_ifs at hr' with hid
  · cases hr'
    exact Or.inl rfl
  · exact h r' hr'

end Ack

theorem isExpired_leased (h : isExpired now r = true) : r.state = .leased := by
  simp only [isExpired, Bool.and_eq_true, decide_eq_true_eq] at h
  exact h.1

theorem Stocked.reclaim (h : Stocked stored acked s) (now : Timestamp) :
    Stocked stored acked (s.reclaim now).2 := by
  refine h.rewritten (h.sound.reclaim now) fun id => ?_
  rw [get?_reclaim]
  cases hr : s.records.get? id with
  | none => exact Or.inl rfl
  | some r =>
    by_cases expired : isExpired now r = true
    · refine Or.inr ⟨r, requeue r, rfl, by simp [expired], rfl, ?_, nofun⟩
      rw [isExpired_leased expired]
      nofun
    · exact Or.inl (by simp [expired])

/-- Only from the end of the loan on is a record taken back. -/
theorem Tied.reclaim (h : s.Tied id t) (now : Timestamp) :
    t ≤ now ∨ (s.reclaim now).2.Tied id t := by
  by_cases due : t ≤ now
  · exact Or.inl due
  · refine Or.inr fun r' hr' => ?_
    rw [get?_reclaim, Option.map_eq_some_iff] at hr'
    obtain ⟨r, hr, rfl⟩ := hr'
    have still : isExpired now r = false := by
      rcases h r hr with state | ⟨-, until_⟩
      · simp [isExpired, state]
      · simp [isExpired, until_, due]
    rw [still]
    exact h r hr

theorem Stocked.prune (h : Stocked stored acked s) (cutoff : Timestamp) :
    Stocked stored acked (s.prune cutoff).2 where
  sound := h.sound.prune cutoff
  known id r hr := by
    rw [get?_prune, Option.filter_eq_some_iff] at hr
    exact h.known id r hr.1
  kept id x hx open_ := by
    obtain ⟨r, hr, hxr, state⟩ := h.kept id x hx open_
    exact ⟨r, by rw [get?_prune, hr]; simp [isPrunable, state], hxr, state⟩
  done id r hr settled := by
    rw [get?_prune, Option.filter_eq_some_iff] at hr
    exact h.done id r hr.1 settled
  real := h.real

theorem Tied.prune (h : s.Tied id t) (cutoff : Timestamp) : (s.prune cutoff).2.Tied id t := by
  intro r hr
  rw [get?_prune, Option.filter_eq_some_iff] at hr
  exact h r hr.1

end Courier.Inbox
