import Courier.Proofs.Inbox.Fate

/-! A lease takes the oldest records first. The order is by the instant of receipt and, within one
instant, by id; it is strict between two records, since no two have the same id. -/

namespace Courier.Inbox

/-- `a` was received before `b`, or at the same instant and has the smaller id. -/
def Older (a b : InboxRecord) : Prop :=
  a.envelope.receivedAt < b.envelope.receivedAt ∨
    (a.envelope.receivedAt = b.envelope.receivedAt ∧ a.id.uuid < b.id.uuid)

theorem goesBefore_iff {a b : InboxRecord} : goesBefore a b = true ↔
    a.envelope.receivedAt.nanos < b.envelope.receivedAt.nanos ∨
      (a.envelope.receivedAt.nanos = b.envelope.receivedAt.nanos ∧
        a.id.uuid.value ≤ b.id.uuid.value) := by
  unfold goesBefore
  split_ifs with same
  · rw [decide_eq_true_iff]
    have : a.envelope.receivedAt.nanos ≠ b.envelope.receivedAt.nanos :=
      fun h => same (Timestamp.ext h)
    exact ⟨Or.inl, fun h => h.resolve_right fun h => this h.1⟩
  · rw [decide_eq_true_iff, not_not] at *
    rw [same]
    exact ⟨fun h => Or.inr ⟨rfl, h⟩, fun h => (h.resolve_left (Int.lt_irrefl _)).2⟩

theorem goesBefore_trans (a b c : InboxRecord) (ab : goesBefore a b = true)
    (bc : goesBefore b c = true) : goesBefore a c = true := by
  rw [goesBefore_iff] at *
  omega

theorem goesBefore_total (a b : InboxRecord) : (goesBefore a b || goesBefore b a) = true := by
  rw [Bool.or_eq_true, goesBefore_iff, goesBefore_iff]
  omega

theorem older_of_goesBefore {a b : InboxRecord} (before : goesBefore a b = true)
    (apart : a.id ≠ b.id) : Older a b := by
  have values : a.id.uuid.value ≠ b.id.uuid.value := by
    obtain ⟨⟨⟨i, hi⟩⟩, _⟩ := a
    obtain ⟨⟨⟨i', hi'⟩⟩, _⟩ := b
    rintro rfl
    exact apart rfl
  rcases goesBefore_iff.1 before with earlier | ⟨same, le⟩
  · exact Or.inl earlier
  · exact Or.inr ⟨Timestamp.ext same, Nat.lt_of_le_of_ne le values⟩

/-- The records `rs` are the oldest that wait in `s`, in order: as many as there are, up to `batch`.
Each is returned as it is stored from then on, in the hands of the consumer. -/
structure Takes (s : Inbox) (consumer : String) (batch : Nat) (until_ : Timestamp)
    (rs : List InboxRecord) : Prop where
  count : rs.length = min batch (s.records.values.countP isPending)
  waited : ∀ r ∈ rs, ∃ r₀, s.records.get? r.id = some r₀ ∧ r₀.state = .pending ∧
    r = leaseTo consumer until_ r₀
  ordered : rs.Pairwise Older
  oldest : ∀ r ∈ rs, ∀ id r', s.records.get? id = some r' → r'.state = .pending →
    (∀ k ∈ rs, k.id ≠ id) → Older r r'

theorem mem_pending {s : Inbox} {id : EnvelopeId} {r : InboxRecord}
    (hr : s.records.get? id = some r) (waits : r.state = .pending) : r ∈ s.pending := by
  rw [pending, List.mem_mergeSort, List.mem_filter, Table.mem_values_iff, isPending_iff]
  exact ⟨⟨id, hr⟩, waits⟩

namespace Sound

variable {s : Inbox}

theorem pending_ordered (h : s.Sound) : s.pending.Pairwise Older := by
  have sorted : s.pending.Pairwise fun a b => goesBefore a b = true :=
    List.pairwise_mergeSort goesBefore_trans goesBefore_total _
  have apart : s.pending.Pairwise fun a b => a.id ≠ b.id := List.pairwise_map.1 h.pending_nodup
  exact (sorted.and apart).imp fun both => older_of_goesBefore both.1 both.2

theorem takes (h : s.Sound) (consumer : String) (batch : Nat) (visibility : Span)
    (now : Timestamp) : Takes s consumer batch (now.add visibility)
      (s.lease consumer batch visibility now).1 where
  count := by
    rw [Inbox.lease, List.length_map, List.length_take, Inbox.pending,
      (List.mergeSort_perm _ _).length_eq, List.countP_eq_length_filter]
  waited _ hr := h.mem_lease hr
  ordered := List.pairwise_map.2 (h.pending_ordered.sublist (List.take_sublist _ _))
  oldest r hr id r' hr' waits left := by
    obtain ⟨r₀, hr₀, rfl⟩ := List.mem_map.1 hr
    have ordered := h.pending_ordered
    have mem := mem_pending hr' waits
    rw [← List.take_append_drop batch s.pending] at ordered mem
    rcases List.mem_append.1 mem with first | rest
    · have taken : leaseTo consumer (now.add visibility) r' ∈
          (s.lease consumer batch visibility now).1 := List.mem_map_of_mem first
      exact (left _ taken (h.keyed id r' hr')).elim
    · exact (List.pairwise_append.1 ordered).2.2 r₀ hr₀ r' rest

end Sound

end Courier.Inbox
