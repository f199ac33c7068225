import Courier.Proofs.Number.Order
import Courier.Proofs.Number.Quantity
import Courier.Proofs.Queue.Run

/-! Which jobs a lease takes. Those that may be leased stand in line, the more urgent first, then
the older, then by id, and no two of them in one place; a lease takes as many from the front as it
asks for, and leaves the rest of the queue alone. -/

namespace Courier.Queue

open Float.Model Float.Model.UnpackedFloat

section Rank

variable {x y : Float}

theorem priorityRank_eq_place (defined : x.toModel.unpack ≠ .notANumber) :
    priorityRank x = place x.toModel.unpack := by
  let b : BitVec Format.binary64.numBits := x.toModel.toBits.toBitVec
  have distance : distance x.toModel.unpack = b.toNat % 2 ^ 63 := distance_unpack b defined
  have sign : signOf x.toModel.unpack = .ofBitVec (unpackSign b) := signOf_unpack b defined
  have bits : x.toBits.toNat = b.toNat := rfl
  have size : b.toNat < 2 ^ 64 := b.isLt
  have top := toNat_sign b
  rw [place, sign, distance, priorityRank, bits, show Nat.pow 2 63 = 2 ^ 63 from rfl, Sign.ofBitVec]
  by_cases positive : unpackSign b = 0#1
  · have : (unpackSign b).toNat = 0 := by rw [positive]; rfl
    rw [if_pos positive, if_pos (show b.toNat < 2 ^ 63 by omega)]
    show (b.toNat : ℤ) = b.toNat % 2 ^ 63
    omega
  · have : (unpackSign b).toNat ≠ 0 := fun h => positive (BitVec.toNat_inj.1 h)
    rw [if_neg positive, if_neg (show ¬ b.toNat < 2 ^ 63 by omega)]
    show ((2 ^ 63 : ℕ) : ℤ) - 1 - b.toNat = -1 - b.toNat % 2 ^ 63
    omega

/-- The rank of a priority grows with the number. -/
theorem priorityRank_lt (lt : x < y) : priorityRank x < priorityRank y := by
  rw [float_lt_iff] at lt
  have left : x.toModel.unpack ≠ .notANumber := fun h => by
    rw [h] at lt
    cases lt
  have right : y.toModel.unpack ≠ .notANumber := fun h => by
    rw [h] at lt
    cases hx : x.toModel.unpack <;> rw [hx] at lt <;> cases lt
  rw [priorityRank_eq_place left, priorityRank_eq_place right]
  exact (canonical_unpack _).place_lt (canonical_unpack _) lt

/-- No two priorities have the same rank, not even the two zeros. -/
theorem priorityRank_injective : Function.Injective priorityRank := by
  intro x y same
  have bits : x.toBits.toNat = y.toBits.toNat := by
    have := x.toBits.toNat_lt
    have := y.toBits.toNat_lt
    simp only [priorityRank, show Nat.pow 2 63 = 2 ^ 63 from rfl] at same
    split_ifs at same <;> omega
  obtain ⟨⟨b, hb⟩⟩ := x
  obtain ⟨⟨b', hb'⟩⟩ := y
  obtain rfl : b = b' := UInt64.toNat_inj.1 bits
  rfl

example : priorityRank (-0.0) = -1 ∧ priorityRank 0.0 = 0 := by decide +kernel

end Rank

/-- `a` is the more urgent, or as urgent and older, or as urgent and as old and has the smaller
id. -/
def Sooner (a b : Job) : Prop :=
  priorityRank b.priority < priorityRank a.priority ∨
    (a.priority = b.priority ∧ (a.createdAt < b.createdAt ∨
      (a.createdAt = b.createdAt ∧ a.id.uuid < b.id.uuid)))

/-- Who is sooner is not the less urgent. -/
theorem Sooner.not_lt {a b : Job} (sooner : Sooner a b) : ¬ a.priority < b.priority := by
  intro lt
  have := priorityRank_lt lt
  rcases sooner with above | ⟨same, -⟩
  · omega
  · rw [same] at this
    omega

theorem goesBefore_iff {a b : Job} : goesBefore a b = true ↔
    priorityRank b.priority < priorityRank a.priority ∨
      (priorityRank a.priority = priorityRank b.priority ∧
        (a.createdAt.nanos < b.createdAt.nanos ∨
          (a.createdAt.nanos = b.createdAt.nanos ∧ a.id.uuid.value ≤ b.id.uuid.value))) := by
  unfold goesBefore
  dsimp only
  split_ifs with rank age
  · rw [decide_eq_true_iff]
    omega
  · have : a.createdAt.nanos ≠ b.createdAt.nanos := fun h => age (Timestamp.ext h)
    rw [decide_eq_true_iff]
    show a.createdAt.nanos < b.createdAt.nanos ↔ _
    omega
  · rw [not_not] at rank age
    rw [decide_eq_true_iff, rank, age]
    show a.id.uuid.value ≤ b.id.uuid.value ↔ _
    omega

theorem goesBefore_trans (a b c : Job) (ab : goesBefore a b = true) (bc : goesBefore b c = true) :
    goesBefore a c = true := by
  rw [goesBefore_iff] at *
  omega

theorem goesBefore_total (a b : Job) : (goesBefore a b || goesBefore b a) = true := by
  rw [Bool.or_eq_true, goesBefore_iff, goesBefore_iff]
  omega

theorem sooner_of_goesBefore {a b : Job} (before : goesBefore a b = true) (apart : a.id ≠ b.id) :
    Sooner a b := by
  have values : a.id.uuid.value ≠ b.id.uuid.value := by
    obtain ⟨⟨⟨i, hi⟩⟩, _⟩ := a
    obtain ⟨⟨⟨i', hi'⟩⟩, _⟩ := b
    rintro rfl
    exact apart rfl
  rcases goesBefore_iff.1 before with above | ⟨rank, older | ⟨age, le⟩⟩
  · exact Or.inl above
  · exact Or.inr ⟨priorityRank_injective rank, Or.inl older⟩
  · exact Or.inr ⟨priorityRank_injective rank,
      Or.inr ⟨Timestamp.ext age, Nat.lt_of_le_of_ne le values⟩⟩

variable {q : Queue}

theorem mem_eligible {id : JobId} {k : Job} {now : Timestamp} (stored : q.get? id = some k)
    (eligible : isEligible now k = true) : k ∈ q.eligible now := by
  rw [Queue.eligible, List.mem_mergeSort, List.mem_filter, Table.mem_values_iff]
  exact ⟨⟨id, stored⟩, eligible⟩

theorem isEligible_iff {now : Timestamp} {k : Job} :
    isEligible now k = true ↔ k.state = .queued ∧ k.availableAt ≤ now := by
  rw [isEligible, Bool.and_eq_true, decide_eq_true_iff, decide_eq_true_iff]

theorem Keyed.mem_eligible_iff (hq : q.Keyed) {now : Timestamp} {k : Job} :
    k ∈ q.eligible now ↔ q.get? k.id = some k ∧ k.state = .queued ∧ k.availableAt ≤ now := by
  constructor
  · intro mem
    rw [eligible, List.mem_mergeSort, List.mem_filter, Table.mem_values_iff, isEligible_iff] at mem
    obtain ⟨⟨id, stored⟩, due⟩ := mem
    have hid : k.id = id := hq id k stored
    exact ⟨hid ▸ stored, due⟩
  · rintro ⟨stored, due⟩
    exact mem_eligible stored (isEligible_iff.2 due)

theorem Keyed.eligible_nodup (hq : q.Keyed) (now : Timestamp) :
    ((q.eligible now).map Job.id).Nodup := by
  rw [eligible, ((List.mergeSort_perm _ _).map Job.id).nodup_iff]
  exact hq.values_nodup.sublist (List.filter_sublist.map _)

theorem Keyed.eligible_ordered (hq : q.Keyed) (now : Timestamp) :
    (q.eligible now).Pairwise Sooner := by
  have sorted : (q.eligible now).Pairwise fun a b => goesBefore a b = true :=
    List.pairwise_mergeSort goesBefore_trans goesBefore_total _
  have apart : (q.eligible now).Pairwise fun a b => a.id ≠ b.id :=
    List.pairwise_map.1 (hq.eligible_nodup now)
  exact (sorted.and apart).imp fun both => sooner_of_goesBefore both.1 both.2

theorem lease_ids (q : Queue) (worker : String) (batch : Nat) (visibility : Span)
    (now : Timestamp) : (q.lease worker batch visibility now).1.map Job.id =
      ((q.eligible now).take batch).map Job.id := by
  rw [lease, List.map_map]
  rfl

/-- A lease returns no job twice. -/
theorem lease_nodup (hq : q.Keyed) (worker : String) (batch : Nat) (visibility : Span)
    (now : Timestamp) : ((q.lease worker batch visibility now).1.map Job.id).Nodup := by
  rw [lease_ids]
  exact (hq.eligible_nodup now).sublist ((List.take_sublist _ _).map _)

/-- What a lease returns is what is stored from then on. -/
theorem Keyed.get?_lease_of_mem (hq : q.Keyed) {worker : String} {batch : Nat} {visibility : Span}
    {now : Timestamp} {j : Job} (hj : j ∈ (q.lease worker batch visibility now).1) :
    (q.lease worker batch visibility now).2.get? j.id = some j := by
  rcases get?_lease hq worker batch visibility now j.id with ⟨k, hk, -, mem, stored⟩ | ⟨ne, -⟩
  · have same : (leaseTo worker (now.add visibility) now k).id = j.id := hq j.id k hk
    rw [stored, List.inj_on_of_nodup_map (lease_nodup hq worker batch visibility now) mem hj same]
  · exact absurd rfl (ne j hj)

/-- The jobs `js` are the first of those that may be leased at `now`, as many as there are up to
`batch`. Each is stored as it was returned, in the hands of the worker; nothing else is touched. -/
structure Takes (q : Queue) (worker : String) (batch : Nat) (until_ now : Timestamp)
    (js : List Job) (q' : Queue) : Prop where
  first : ∃ row : List Job,
    (∀ k, k ∈ row ↔ q.get? k.id = some k ∧ k.state = .queued ∧ k.availableAt ≤ now) ∧
    row.Pairwise Sooner ∧ js.length = min batch row.length ∧
    ∀ i k, i < batch → row[i]? = some k → k.attemptCount + 1 < 2 ^ 32 →
      js[i]? = some
        { k with
          state := .leased
          leasedBy := some worker
          leaseUntil := some until_
          attemptCount := k.attemptCount + 1
          updatedAt := now }
  nodup : (js.map Job.id).Nodup
  stored : ∀ j ∈ js, q'.get? j.id = some j
  others : ∀ id, (∀ j ∈ js, j.id ≠ id) → q'.get? id = q.get? id
  index : q'.active = q.active

theorem Keyed.takes (hq : q.Keyed) (worker : String) (batch : Nat) (visibility : Span)
    (now : Timestamp) :
    Takes q worker batch (now.add visibility) now (q.lease worker batch visibility now).1
      (q.lease worker batch visibility now).2 where
  first := by
    refine ⟨q.eligible now, fun k => hq.mem_eligible_iff, hq.eligible_ordered now, ?_, ?_⟩
    · rw [lease, List.length_map, List.length_take]
    · intro i k small at_ counts
      have count : successor32 k.attemptCount = k.attemptCount + 1 := Nat.mod_eq_of_lt counts
      rw [lease, List.getElem?_map, List.getElem?_take_of_lt small, at_, Option.map_some, leaseTo,
        count]
  nodup := lease_nodup hq worker batch visibility now
  stored _ := hq.get?_lease_of_mem
  others id left := by
    rcases get?_lease hq worker batch visibility now id with ⟨k, hk, -, mem, -⟩ | ⟨-, same⟩
    · exact (left _ mem (hq id k hk)).elim
    · exact same
  index := lease_active worker batch visibility now q

/-- In every queue that calls can lead to, whatever ids the callers chose, a lease takes the first
jobs of the line and touches only them. -/
theorem Reached.lease_takes (reached : q.Reached) (worker : String) (batch : Nat)
    (visibility : Span) (now : Timestamp) :
    Takes q worker batch (now.add visibility) now (q.lease worker batch visibility now).1
      (q.lease worker batch visibility now).2 :=
  reached.keyed.takes worker batch visibility now

/-- Four jobs, of which the third is the most urgent that is due and the fourth is not due yet. -/
def fourWait : List (Timestamp × Call) :=
  [(.epoch, .enqueue (sampleJob 2 "i-2")),
    (.epoch, .enqueue { sampleJob 3 "i-3" with priority := 1 }),
    (.epoch, .enqueue (sampleJob 1 "i-1")),
    (.epoch, .enqueue { sampleJob 4 "i-4" with priority := 2, availableAt := .clamp 1 })]

theorem eligible_fourWait : ((afterAll empty fourWait).eligible .epoch).map Job.id =
    [⟨.ofNat 3⟩, ⟨.ofNat 1⟩, ⟨.ofNat 2⟩] := by
  obtain ⟨a, ha⟩ : ∃ a, a = sampleJob 2 "i-2" := ⟨_, rfl⟩
  obtain ⟨b, hb⟩ : ∃ b, b = { sampleJob 3 "i-3" with priority := 1 } := ⟨_, rfl⟩
  obtain ⟨c, hc⟩ : ∃ c, c = sampleJob 1 "i-1" := ⟨_, rfl⟩
  have waiting : (afterAll empty fourWait).jobs.values.filter (isEligible .epoch) = [a, b, c] := by
    rw [ha, hb, hc]
    rfl
  have ab : goesBefore a b = false := by rw [ha, hb]; decide +kernel
  have bc : goesBefore b c = true := by rw [hb, hc]; decide +kernel
  have ac : goesBefore a c = false := by rw [ha, hc]; decide +kernel
  have sorted : [a, b, c].mergeSort goesBefore = [b, c, a] := by
    simp [List.mergeSort, List.MergeSort.Internal.splitInTwo, ab, bc, ac]
  rw [eligible, waiting, sorted, ha, hb, hc]
  rfl

theorem lease_takes_fourWait : ∃ js q', (afterAll empty fourWait).Reached ∧
    (afterAll empty fourWait).lease "w-1" 2 (.ofSeconds 60) .epoch = (js, q') ∧
    js.map Job.id = [⟨.ofNat 3⟩, ⟨.ofNat 1⟩] ∧
    Takes (afterAll empty fourWait) "w-1" 2 (Timestamp.epoch.add (.ofSeconds 60)) .epoch js q' := by
  have reached : (afterAll empty fourWait).Reached := Reached.empty.afterAll _
  have ids : ((afterAll empty fourWait).lease "w-1" 2 (.ofSeconds 60) .epoch).1.map Job.id =
      [⟨.ofNat 3⟩, ⟨.ofNat 1⟩] := by
    rw [lease_ids, List.map_take, eligible_fourWait]
    rfl
  exact ⟨_, _, reached, rfl, ids, reached.lease_takes "w-1" 2 (.ofSeconds 60) .epoch⟩

end Courier.Queue
