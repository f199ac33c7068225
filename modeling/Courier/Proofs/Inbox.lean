import Mathlib.Data.List.Count
import Mathlib.Tactic.SplitIfs
import Courier.Inbox
import Courier.Proofs.Table

/-! What may become of an inbox, pruning apart. The list of jobs that have been seen is the account
of the records: a job has one record if it is on the list, and none if it is not. -/

namespace Courier.Inbox

/-- One call on an inbox that draws `fresh` for a new record, with the job that gets one. -/
inductive Change (fresh : EnvelopeId) (s : Inbox) : Option JobId → Inbox → Prop where
  | same : Change fresh s none s
  | stored {x : Envelope} : x.jobId ∉ s.seen → Change fresh s (some x.jobId) (s.append fresh x).2
  | leased (consumer : String) (batch : Nat) (visibility : Span) (now : Timestamp) :
      Change fresh s none (s.lease consumer batch visibility now).2
  | acked {id : EnvelopeId} {consumer : String} {s' : Inbox} : s.ack id consumer = .ok s' →
      Change fresh s none s'
  | reclaimed (now : Timestamp) : Change fresh s none (s.reclaim now).2

theorem append_of_seen {x : Envelope} {s : Inbox} (h : x.jobId ∈ s.seen) (id : EnvelopeId) :
    s.append id x = (false, s) := if_pos h

theorem append_of_unseen {x : Envelope} {s : Inbox} (h : x.jobId ∉ s.seen) (id : EnvelopeId) :
    s.append id x =
      (true, ⟨s.records.insert id ⟨id, x, .pending, none, none, 0⟩, s.seen ++ [x.jobId]⟩) :=
  if_neg h

/-- An acknowledgement rewrites a stored record and keeps its envelope. -/
theorem ack_ok {id : EnvelopeId} {consumer : String} {s s' : Inbox}
    (h : s.ack id consumer = .ok s') : ∃ r r', s.records.get? id = some r ∧ r'.id = r.id ∧
      r'.envelope = r.envelope ∧ s' = s.put r' := by
  unfold ack at h
  split at h
  · cases h
  · rename_i r hr
    split at h
    · cases h
      exact ⟨r, { r with state := .acked, leasedBy := none, leaseUntil := none }, hr, rfl, rfl, rfl⟩
    · cases h

theorem get?_put (r : InboxRecord) (s : Inbox) (id : EnvelopeId) :
    (s.put r).records.get? id = if id = r.id then some r else s.records.get? id :=
  Table.get?_insert _ _ _ _

/-- An append under an id of its own leaves the stored records alone. -/
theorem get?_append_of_ne {s : Inbox} {id id' : EnvelopeId} (other : id' ≠ id) (x : Envelope) :
    (s.append id x).2.records.get? id' = s.records.get? id' := by
  by_cases seen : x.jobId ∈ s.seen
  · rw [append_of_seen seen]
  · rw [append_of_unseen seen, Table.get?_insert, if_neg other]

/-- A record is stored after an append if it was before, or if the append just brought it. -/
theorem get?_append {s : Inbox} {id id' : EnvelopeId} {x : Envelope} {r : InboxRecord}
    (hr : (s.append id x).2.records.get? id' = some r) : s.records.get? id' = some r ∨
      (s.append id x).1 = true ∧ id' = id ∧ r = ⟨id, x, .pending, none, none, 0⟩ := by
  by_cases seen : x.jobId ∈ s.seen
  · rw [append_of_seen seen] at hr
    exact Or.inl hr
  · rw [append_of_unseen seen, Table.get?_insert] at hr
    split_ifs at hr with same
    · exact Or.inr ⟨by rw [append_of_unseen seen], same, (Option.some.inj hr).symm⟩
    · exact Or.inl hr

theorem seen_foldl_put (rs : List InboxRecord) (s : Inbox) :
    (rs.foldl (fun s r => s.put r) s).seen = s.seen := by
  induction rs generalizing s with
  | nil => rfl
  | cons r rest ih => exact ih (s.put r)

theorem Change.mem_seen_iff {fresh : EnvelopeId} {s s' : Inbox} {o : Option JobId}
    (h : Change fresh s o s') (id : JobId) : id ∈ s'.seen ↔ id ∈ s.seen ∨ o = some id := by
  cases h with
  | same | reclaimed => simp [reclaim]
  | stored hx => simp [append_of_unseen hx, eq_comm]
  | leased => simp [lease, seen_foldl_put]
  | acked ok =>
    obtain ⟨r, r', -, -, -, rfl⟩ := ack_ok ok
    simp [put]

/-- How many records there are for a job. -/
def recordsFor (id : JobId) (s : Inbox) : Nat :=
  s.records.values.countP fun r => r.envelope.jobId = id

/-- Records are stored under their own ids, and there is one for each job seen. -/
structure Sound (s : Inbox) : Prop where
  keyed : ∀ k r, s.records.get? k = some r → r.id = k
  counted : ∀ id, s.recordsFor id = if id ∈ s.seen then 1 else 0

theorem sound_empty : empty.Sound :=
  ⟨fun k r h => by simp [empty] at h,
    fun id => by simp [recordsFor, empty, Table.values, Table.empty]⟩

theorem recordsFor_congr {s s' : Inbox}
    (h : s'.records.values.map InboxRecord.envelope = s.records.values.map InboxRecord.envelope)
    (id : JobId) : s'.recordsFor id = s.recordsFor id := by
  have count : ∀ s : Inbox, s.recordsFor id =
      (s.records.values.map InboxRecord.envelope).countP fun x => x.jobId = id := by
    intro s
    rw [recordsFor, List.countP_map]
    rfl
  rw [count, count, h]

namespace Sound

variable {s : Inbox}

/-- After an append the job has one record, whichever id it drew. -/
theorem recordsFor_append (h : s.Sound) (id : EnvelopeId) (x : Envelope) :
    (s.append id x).2.recordsFor x.jobId = 1 := by
  have before := h.counted x.jobId
  by_cases seen : x.jobId ∈ s.seen
  · rw [append_of_seen seen, before, if_pos seen]
  · rw [if_neg seen, recordsFor, List.countP_eq_zero] at before
    rw [append_of_unseen seen]
    exact Table.countP_values_insert (decide_eq_true rfl) fun r hr => by simpa using before r hr

/-- A record may be rewritten as long as it keeps its envelope. -/
theorem put (h : s.Sound) {r r' : InboxRecord} (hr : s.records.get? r'.id = some r)
    (same : r'.envelope = r.envelope) : (s.put r').Sound where
  keyed k r₁ hk := by
    rw [get?_put] at hk
    split_ifs at hk with he
    · rw [he, ← Option.some.inj hk]
    · exact h.keyed k r₁ hk
  counted id := by
    rw [recordsFor_congr (Table.map_values_insert hr same)]
    exact h.counted id

/-- So may many of them. -/
theorem foldl_put (h : s.Sound) {rs : List InboxRecord} (stored : ∀ r' ∈ rs,
    ∃ r, s.records.get? r'.id = some r ∧ r'.envelope = r.envelope) :
    (rs.foldl (fun s r => s.put r) s).Sound := by
  induction rs generalizing s with
  | nil => exact h
  | cons r₁ rest ih =>
    obtain ⟨r, hr, same⟩ := stored r₁ List.mem_cons_self
    refine ih (h.put hr same) fun r' hr' => ?_
    obtain ⟨r₀, hr₀, same₀⟩ := stored r' (List.mem_cons_of_mem _ hr')
    dsimp only
    rw [get?_put]
    split_ifs with he
    · rw [he, hr] at hr₀
      exact ⟨r₁, rfl, by rw [same₀, same, Option.some.inj hr₀]⟩
    · exact ⟨r₀, hr₀, same₀⟩

theorem change (h : s.Sound) {fresh : EnvelopeId} {o : Option JobId} {s' : Inbox}
    (unused : o ≠ none → s.records.get? fresh = none) (change : Change fresh s o s') :
    s'.Sound := by
  cases change with
  | same => exact h
  | @stored x hx =>
    rw [append_of_unseen hx]
    refine ⟨fun k r hk => ?_, fun id => ?_⟩
    · rw [Table.get?_insert] at hk
      split_ifs at hk with he
      · rw [he, ← Option.some.inj hk]
      · exact h.keyed k r hk
    · have before := h.counted id
      unfold recordsFor at before ⊢
      rw [Table.values_insert_of_none (unused (Option.some_ne_none _)), List.countP_append, before]
      by_cases hid : x.jobId = id
      · subst hid
        simp [hx]
      · simp [hid, Ne.symm hid]
  | leased consumer batch visibility now =>
    refine h.foldl_put fun r' hr' => ?_
    obtain ⟨r, hr, rfl⟩ := List.mem_map.1 hr'
    have hr := List.mem_of_mem_take hr
    rw [pending, List.mem_mergeSort, List.mem_filter, Table.mem_values_iff] at hr
    obtain ⟨⟨k, hk⟩, -⟩ := hr
    have : r.id = k := h.keyed k r hk
    exact ⟨r, this ▸ hk, rfl⟩
  | acked ok =>
    obtain ⟨r, r', hr, hid, same, rfl⟩ := ack_ok ok
    rw [← h.keyed _ r hr, ← hid] at hr
    exact h.put hr same
  | reclaimed now =>
    have kept : ∀ r : InboxRecord, (if isExpired now r then requeue r else r).id = r.id ∧
        (if isExpired now r then requeue r else r).envelope = r.envelope := by
      intro r
      split_ifs <;> exact ⟨rfl, rfl⟩
    refine ⟨fun k r hk => ?_, fun id => ?_⟩
    · rw [reclaim, Table.get?_mapValues, Option.map_eq_some_iff] at hk
      obtain ⟨r₀, hr₀, rfl⟩ := hk
      rw [(kept r₀).1]
      exact h.keyed k r₀ hr₀
    · rw [recordsFor_congr (Table.map_values_mapValues fun e _ => (kept e.2).2)]
      exact h.counted id

theorem lease (h : s.Sound) (consumer : String) (batch : Nat) (visibility : Span)
    (now : Timestamp) : (s.lease consumer batch visibility now).2.Sound :=
  h.change (fun ne => absurd rfl ne)
    (Change.leased consumer batch visibility now : Change ⟨.ofNat 0⟩ s none _)

theorem reclaim (h : s.Sound) (now : Timestamp) : (s.reclaim now).2.Sound :=
  h.change (fun ne => absurd rfl ne) (Change.reclaimed now : Change ⟨.ofNat 0⟩ s none _)

end Sound

theorem get?_foldl_put (rs : List InboxRecord) (s : Inbox) (id : EnvelopeId) :
    (∃ r ∈ rs, r.id = id ∧ (rs.foldl (fun s r => s.put r) s).records.get? id = some r) ∨
      ((∀ r ∈ rs, r.id ≠ id) ∧
        (rs.foldl (fun s r => s.put r) s).records.get? id = s.records.get? id) := by
  induction rs generalizing s with
  | nil => exact Or.inr ⟨List.forall_mem_nil _, rfl⟩
  | cons r rs ih =>
    rw [List.foldl_cons]
    rcases ih (s.put r) with ⟨r', hr', hid, hget⟩ | ⟨hne, hget⟩
    · exact Or.inl ⟨r', List.mem_cons_of_mem _ hr', hid, hget⟩
    · rw [get?_put] at hget
      by_cases h : id = r.id
      · exact Or.inl ⟨r, List.mem_cons_self, h.symm, by rw [hget, if_pos h]⟩
      · refine Or.inr ⟨fun r' hr' => ?_, by rw [hget, if_neg h]⟩
        rcases List.mem_cons.1 hr' with rfl | hr'
        · exact fun he => h he.symm
        · exact hne r' hr'

theorem get?_reclaim (now : Timestamp) (s : Inbox) (id : EnvelopeId) :
    (s.reclaim now).2.records.get? id =
      (s.records.get? id).map fun r => if isExpired now r then requeue r else r :=
  Table.get?_mapValues _ _ _

theorem get?_prune (cutoff : Timestamp) (s : Inbox) (id : EnvelopeId) :
    (s.prune cutoff).2.records.get? id =
      (s.records.get? id).filter fun r => !isPrunable cutoff r :=
  Table.get?_filter _ _ _

namespace Sound

variable {s : Inbox}

/-- An envelope that a lease returns was pending before, and is stored as it was returned. -/
theorem mem_lease (h : s.Sound) {consumer : String} {batch : Nat} {visibility : Span}
    {now : Timestamp} {r : InboxRecord} (hr : r ∈ (s.lease consumer batch visibility now).1) :
    ∃ r₀, s.records.get? r.id = some r₀ ∧ r₀.state = .pending ∧
      r = leaseTo consumer (now.add visibility) r₀ := by
  obtain ⟨r₀, hr₀, rfl⟩ := List.mem_map.1 hr
  have hr₀ := List.mem_of_mem_take hr₀
  rw [pending, List.mem_mergeSort, List.mem_filter, Table.mem_values_iff] at hr₀
  obtain ⟨⟨k, hk⟩, waits⟩ := hr₀
  obtain rfl : r₀.id = k := h.keyed k r₀ hk
  exact ⟨r₀, hk, of_decide_eq_true waits, rfl⟩

/-- A lease puts what it returns in the place of what was pending, and touches nothing else. -/
theorem get?_lease (h : s.Sound) (consumer : String) (batch : Nat) (visibility : Span)
    (now : Timestamp) (id : EnvelopeId) :
    (∃ r₀, s.records.get? id = some r₀ ∧ r₀.state = .pending ∧
        leaseTo consumer (now.add visibility) r₀ ∈ (s.lease consumer batch visibility now).1 ∧
        (s.lease consumer batch visibility now).2.records.get? id =
          some (leaseTo consumer (now.add visibility) r₀)) ∨
      ((∀ r ∈ (s.lease consumer batch visibility now).1, r.id ≠ id) ∧
        (s.lease consumer batch visibility now).2.records.get? id = s.records.get? id) := by
  rcases get?_foldl_put (s.lease consumer batch visibility now).1 s id with
    ⟨r, hr, hid, hget⟩ | ⟨hne, hget⟩
  · obtain ⟨r₀, hr₀, waits, rfl⟩ := h.mem_lease hr
    exact Or.inl ⟨r₀, hid ▸ hr₀, waits, hr, hget⟩
  · exact Or.inr ⟨hne, hget⟩

theorem pending_nodup (h : s.Sound) : (s.pending.map InboxRecord.id).Nodup := by
  rw [Inbox.pending, ((List.mergeSort_perm _ _).map InboxRecord.id).nodup_iff]
  exact (Table.nodup_map_values h.keyed).sublist (List.filter_sublist.map _)

/-- A lease returns no envelope twice. -/
theorem lease_nodup (h : s.Sound) (consumer : String) (batch : Nat) (visibility : Span)
    (now : Timestamp) :
    ((s.lease consumer batch visibility now).1.map InboxRecord.id).Nodup := by
  have ids : (s.lease consumer batch visibility now).1.map InboxRecord.id =
      (s.pending.take batch).map InboxRecord.id := by
    rw [Inbox.lease, List.map_map]
    rfl
  rw [ids]
  exact h.pending_nodup.sublist ((List.take_sublist _ _).map _)

/-- A job has one record at most. -/
theorem single (h : s.Sound) {k k' : EnvelopeId} {r r' : InboxRecord}
    (hr : s.records.get? k = some r) (hr' : s.records.get? k' = some r')
    (same : r.envelope.jobId = r'.envelope.jobId) : k = k' := by
  by_contra other
  have apart : r ≠ r' := by
    rintro rfl
    exact other ((h.keyed k r hr).symm.trans (h.keyed k' r hr'))
  have both : [r, r'].Subperm s.records.values := by
    refine List.subperm_of_subset (by simp [apart]) fun x hx => ?_
    rcases List.mem_cons.1 hx with rfl | hx
    · exact (Table.mem_values_iff _ _).2 ⟨k, hr⟩
    · obtain rfl := List.mem_singleton.1 hx
      exact (Table.mem_values_iff _ _).2 ⟨k', hr'⟩
  have two : 2 ≤ s.recordsFor r'.envelope.jobId := by
    have count := both.countP_le fun x : InboxRecord => x.envelope.jobId = r'.envelope.jobId
    simpa [same, recordsFor] using count
  rw [h.counted] at two
  split_ifs at two <;> omega

/-- Pruning strikes a job off the list when it forgets its record. -/
theorem prune (h : s.Sound) (cutoff : Timestamp) : (s.prune cutoff).2.Sound where
  keyed k r hk := by
    rw [get?_prune, Option.filter_eq_some_iff] at hk
    exact h.keyed k r hk.1
  counted id := by
    have values : (s.prune cutoff).2.records.values =
        s.records.values.filter fun r => !isPrunable cutoff r := Table.values_filter _ _
    have seen : id ∈ (s.prune cutoff).2.seen ↔ id ∈ s.seen ∧
        ∀ r ∈ s.records.values, isPrunable cutoff r = true → r.envelope.jobId ≠ id := by
      simp [Inbox.prune]
    have before := h.counted id
    rw [recordsFor, values, List.countP_filter]
    unfold recordsFor at before
    by_cases gone : ∃ r ∈ s.records.values, isPrunable cutoff r = true ∧ r.envelope.jobId = id
    · obtain ⟨r, hr, old, rfl⟩ := gone
      rw [if_neg fun hs => (seen.1 hs).2 r hr old rfl, List.countP_eq_zero]
      intro r' hr' both
      obtain ⟨k, hk⟩ := (Table.mem_values_iff _ _).1 hr
      obtain ⟨k', hk'⟩ := (Table.mem_values_iff _ _).1 hr'
      simp only [Bool.and_eq_true, decide_eq_true_eq, Bool.not_eq_true'] at both
      obtain rfl := h.single hk' hk both.1
      rw [hk] at hk'
      rw [← Option.some.inj hk', old] at both
      cases both.2
    · have kept : ∀ r ∈ s.records.values, isPrunable cutoff r = true → r.envelope.jobId ≠ id :=
        fun r hr old same => gone ⟨r, hr, old, same⟩
      have all : (id ∈ (s.prune cutoff).2.seen) = (id ∈ s.seen) :=
        propext ⟨fun hs => (seen.1 hs).1, fun hs => seen.2 ⟨hs, kept⟩⟩
      rw [if_congr (iff_of_eq all) rfl rfl, ← before]
      refine List.countP_congr fun r hr => ?_
      have := kept r hr
      cases hp : isPrunable cutoff r
      · simp
      · simp [this hp]

end Sound

theorem mem_envelopes {s : Inbox} {x : Envelope} :
    x ∈ s.envelopes ↔ ∃ r ∈ s.records.values, r.envelope = x := by
  rw [envelopes, List.mem_mergeSort, List.mem_map]

theorem mem_envelopes_of_get? {s : Inbox} {id : EnvelopeId} {r : InboxRecord}
    (h : s.records.get? id = some r) : r.envelope ∈ s.envelopes :=
  mem_envelopes.2 ⟨r, (Table.mem_values_iff _ _).2 ⟨id, h⟩, rfl⟩

theorem exists_of_mem_envelopes {s : Inbox} {x : Envelope} (h : x ∈ s.envelopes) :
    ∃ id r, s.records.get? id = some r ∧ r.envelope = x := by
  obtain ⟨r, hr, rfl⟩ := mem_envelopes.1 h
  obtain ⟨id, hid⟩ := (Table.mem_values_iff _ _).1 hr
  exact ⟨id, r, hid, rfl⟩

theorem mem_envelopes_append {s : Inbox} {id : EnvelopeId} {x y : Envelope}
    (h : y ∈ (s.append id x).2.envelopes) : y ∈ s.envelopes ∨ y = x := by
  obtain ⟨k, r, hr, rfl⟩ := exists_of_mem_envelopes h
  rcases get?_append hr with old | ⟨-, -, rfl⟩
  · exact Or.inl (mem_envelopes_of_get? old)
  · exact Or.inr rfl

theorem mem_envelopes_prune {s : Inbox} {cutoff : Timestamp} {y : Envelope}
    (h : y ∈ (s.prune cutoff).2.envelopes) : y ∈ s.envelopes := by
  obtain ⟨k, r, hr, rfl⟩ := exists_of_mem_envelopes h
  rw [get?_prune, Option.filter_eq_some_iff] at hr
  exact mem_envelopes_of_get? hr.1

/-- Nothing but an append brings an envelope. -/
theorem Change.mem_envelopes {fresh : EnvelopeId} {s s' : Inbox} (h : Change fresh s none s')
    {y : Envelope} (hy : y ∈ s'.envelopes) : y ∈ s.envelopes := by
  cases h with
  | same => exact hy
  | leased consumer batch visibility now =>
    obtain ⟨k, r, hr, rfl⟩ := exists_of_mem_envelopes hy
    rcases get?_foldl_put (s.lease consumer batch visibility now).1 s k with
      ⟨r', hr', -, hget⟩ | ⟨-, hget⟩
    · rw [show (s.lease consumer batch visibility now).2.records.get? k = some r' from hget] at hr
      obtain ⟨r₀, hr₀, rfl⟩ := List.mem_map.1 hr'
      have hr₀ := List.mem_of_mem_take hr₀
      rw [pending, List.mem_mergeSort, List.mem_filter] at hr₀
      rw [← Option.some.inj hr]
      exact Inbox.mem_envelopes.2 ⟨r₀, hr₀.1, rfl⟩
    · exact mem_envelopes_of_get? (hget.symm.trans hr)
  | acked ok =>
    obtain ⟨r, r', hr, -, same, rfl⟩ := ack_ok ok
    obtain ⟨k, r₁, hr₁, rfl⟩ := exists_of_mem_envelopes hy
    rw [get?_put] at hr₁
    split_ifs at hr₁
    · rw [← Option.some.inj hr₁, same]
      exact mem_envelopes_of_get? hr
    · exact mem_envelopes_of_get? hr₁
  | reclaimed now =>
    obtain ⟨k, r, hr, rfl⟩ := exists_of_mem_envelopes hy
    rw [get?_reclaim, Option.map_eq_some_iff] at hr
    obtain ⟨r₀, hr₀, rfl⟩ := hr
    have same : (if isExpired now r₀ then requeue r₀ else r₀).envelope = r₀.envelope := by
      split_ifs <;> rfl
    rw [same]
    exact mem_envelopes_of_get? hr₀

end Courier.Inbox
