import Mathlib.Algebra.GroupWithZero.Nat
import Mathlib.Data.Finset.Card
import Mathlib.Data.List.Perm.Basic
import Courier.Proofs.Queue.Fate
import Courier.Proofs.Queue.Index

/-! Where accepted work is. Every job that was taken in is stored, or a prune removed it after it
was completed; none is lost and none is there twice. So the figures that a queue shows, by state and
by context, add up to what was taken in. -/

open scoped List

namespace Courier.Queue

/-- The ids of the stored jobs. -/
def ids (q : Queue) : List JobId := q.jobs.values.map Job.id

/-- The intents that have an active job. -/
def activeIntents (q : Queue) : Finset String :=
  ((q.jobs.values.filter Job.isActive).map Job.intentId).toFinset

namespace Entry

/-- The jobs that the call took out of the queue, as they were stored before. -/
def removed (e : Entry) : List Job :=
  e.before.jobs.values.filter fun j => (e.after.get? j.id).isNone

/-- How many jobs a prune says that it removed. -/
def pruneCount (e : Entry) : Nat :=
  match e.call, e.answer with
  | .prune _, .ok (.count n) => n
  | _, _ => 0

end Entry

/-- All jobs that were taken out, as they were stored last. -/
def removed (h : List Entry) : List Job := h.flatMap Entry.removed

section

variable {q : Queue}

theorem Keyed.mem_values_iff (hq : q.Keyed) (j : Job) :
    j ∈ q.jobs.values ↔ q.get? j.id = some j := by
  rw [Table.mem_values_iff]
  constructor
  · rintro ⟨id, hid⟩
    obtain rfl : j.id = id := hq id j hid
    exact hid
  · exact fun h => ⟨j.id, h⟩

theorem Keyed.mem_ids_iff (hq : q.Keyed) (id : JobId) : id ∈ q.ids ↔ ∃ j, q.get? id = some j := by
  rw [ids, List.mem_map]
  constructor
  · rintro ⟨j, hj, rfl⟩
    exact ⟨j, (hq.mem_values_iff j).1 hj⟩
  · rintro ⟨j, hj⟩
    obtain rfl : j.id = id := hq id j hj
    exact ⟨j, (hq.mem_values_iff j).2 hj, rfl⟩

end

/-- What is accepted is accepted under an id for a new job, and stored under it. -/
theorem Change.accepted {now : Timestamp} {q q' : Queue} {c : Call} {a : Answer}
    (h : Change now q c a q') {id : JobId} (acc : a.accepted? = some id) :
    c.newId? = some id ∧ ∃ j, q'.get? id = some j := by
  cases h with
  | @takenIn j =>
    obtain rfl : j.id = id := Option.some.inj acc
    exact ⟨rfl, _, (get?_takeIn _ q j.id).trans (if_pos rfl)⟩
  | @replayed _ child j =>
    obtain rfl : child = id := Option.some.inj acc
    exact ⟨rfl, _, (get?_takeIn _ _ child).trans (if_pos rfl)⟩
  | _ => cases acc

namespace Entry

variable {e : Entry} {id : JobId}

theorem accepted_new (acc : e.accepted? = some id) :
    e.call.newId? = some id ∧ ∃ j, e.after.get? id = some j := by
  rcases e.call.after_cases e.now e.before with ⟨_, answer, -⟩ | ⟨a, answer, change⟩
  · simp [accepted?, Entry.answer, answer] at acc
  · simp only [accepted?, Entry.answer, answer] at acc
    exact change.accepted acc

theorem stored_or_accepted (keyed : e.before.Keyed) {j : Job} (hj : e.after.get? id = some j) :
    (∃ k, e.before.get? id = some k) ∨ e.accepted? = some id := by
  rcases e.call.after_cases e.now e.before with ⟨_, -, same⟩ | ⟨a, answer, change⟩
  · exact Or.inl ⟨j, by rw [← same]; exact hj⟩
  · refine (change.stored keyed hj).imp_right fun new => ?_
    simp only [accepted?, Entry.answer, answer]
    exact new.2

/-- Prunes remove what is prunable and say how many that were; no other call removes anything. -/
theorem removed_cases (keyed : e.before.Keyed)
    (unused : ∀ id, e.call.newId? = some id → e.before.get? id = none) :
    (∃ cutoff, e.call = .prune cutoff ∧
      e.removed = e.before.jobs.values.filter (isPrunable cutoff) ∧
      e.pruneCount = e.removed.length) ∨ (e.removed = [] ∧ e.pruneCount = 0) := by
  obtain ⟨now, c, q⟩ := e
  by_cases prunes : ∃ cutoff, c = .prune cutoff
  · obtain ⟨cutoff, rfl⟩ := prunes
    have removed : (⟨now, .prune cutoff, q⟩ : Entry).removed =
        q.jobs.values.filter (isPrunable cutoff) := by
      refine List.filter_congr fun j hj => ?_
      have stored := (keyed.mem_values_iff j).1 hj
      have left : (Call.prune cutoff).after now q = (q.prune cutoff).2 := rfl
      rw [after, left, get?_prune, stored]
      cases hp : isPrunable cutoff j <;> simp [hp]
    exact Or.inl ⟨cutoff, rfl, removed, by rw [removed]; rfl⟩
  · refine Or.inr ⟨?_, ?_⟩
    · rw [Entry.removed, List.filter_eq_nil_iff]
      intro j hj
      have stored := (keyed.mem_values_iff j).1 hj
      rcases c.after_cases now q with ⟨_, -, same⟩ | ⟨a, -, change⟩
      · simp [after, same, stored]
      · have old : c.newId? ≠ some j.id := fun hid => by
          rw [unused _ hid] at stored
          cases stored
        have fate := change.fate keyed stored old
        rw [Bool.not_eq_true, Option.isNone_eq_false_iff, Option.isSome_iff_exists, after]
        generalize (c.after now q).get? j.id = o at fate ⊢
        cases fate with
        | pruned => exact absurd ⟨_, rfl⟩ prunes
        | _ => exact ⟨_, rfl⟩
    · unfold pruneCount
      cases c with
      | prune cutoff => exact absurd ⟨cutoff, rfl⟩ prunes
      | _ => rfl

/-- What is stored before a call or accepted by it is stored after it or removed by it. -/
theorem ids_perm (keyed : e.before.Keyed)
    (unused : ∀ id, e.call.newId? = some id → e.before.get? id = none) :
    (e.before.ids ++ e.accepted?.toList).Perm (e.after.ids ++ e.removed.map Job.id) := by
  have keyed' : e.after.Keyed := e.call.after_keyed e.now keyed
  have mem_removed : ∀ id, id ∈ e.removed.map Job.id ↔
      (∃ j, e.before.get? id = some j) ∧ e.after.get? id = none := by
    intro id
    rw [← keyed.mem_ids_iff, ids]
    simp only [removed, List.mem_map, List.mem_filter, Option.isNone_iff_eq_none]
    constructor
    · rintro ⟨j, ⟨hj, gone⟩, rfl⟩
      exact ⟨⟨j, hj, rfl⟩, gone⟩
    · rintro ⟨⟨j, hj, rfl⟩, gone⟩
      exact ⟨j, ⟨hj, gone⟩, rfl⟩
  have left : (e.before.ids ++ e.accepted?.toList).Nodup := by
    refine List.nodup_append.2 ⟨keyed.values_nodup, ?_, ?_⟩
    · cases e.accepted? <;> simp
    · rintro id hid id' acc rfl
      obtain ⟨j, hj⟩ := (keyed.mem_ids_iff id).1 hid
      rw [unused id (accepted_new (Option.mem_toList.1 acc)).1] at hj
      cases hj
  have right : (e.after.ids ++ e.removed.map Job.id).Nodup := by
    refine List.nodup_append.2 ⟨keyed'.values_nodup, ?_, ?_⟩
    · exact keyed.values_nodup.sublist (List.filter_sublist.map _)
    · rintro id hid id' gone rfl
      obtain ⟨j, hj⟩ := (keyed'.mem_ids_iff id).1 hid
      rw [((mem_removed id).1 gone).2] at hj
      cases hj
  rw [List.perm_ext_iff_of_nodup left right]
  intro id
  rw [List.mem_append, List.mem_append, keyed.mem_ids_iff, keyed'.mem_ids_iff, mem_removed,
    Option.mem_toList]
  constructor
  · rintro (stored | acc)
    · cases gone : e.after.get? id with
      | none => exact Or.inr ⟨stored, rfl⟩
      | some j => exact Or.inl ⟨j, rfl⟩
    · exact Or.inl (accepted_new acc).2
  · rintro (⟨j, hj⟩ | ⟨stored, -⟩)
    · exact stored_or_accepted keyed hj
    · exact Or.inl stored

end Entry

section

variable {h : List Entry} {q : Queue}

/-- No id is accepted twice. -/
theorem Run.accepted_nodup (run : Run h q) : (accepted h).Nodup := by
  induction run with
  | nil => exact List.nodup_nil
  | @snoc h q run now c fresh ih =>
    rw [accepted_snoc]
    refine List.nodup_append.2 ⟨ih, ?_, ?_⟩
    · cases Entry.accepted? ⟨now, c, q⟩ <;> simp
    · rintro id hid id' acc rfl
      exact fresh id (Entry.accepted_new (Option.mem_toList.1 acc)).1 hid

theorem Run.accepted_perm (run : Run h q) :
    (accepted h).Perm (q.ids ++ (removed h).map Job.id) := by
  induction run with
  | nil => exact List.Perm.refl _
  | @snoc h q run now c fresh ih =>
    have step := Entry.ids_perm (e := ⟨now, c, q⟩) run.keyed fun id => run.get?_fresh fresh
    rw [accepted_snoc, removed, List.flatMap_append, List.flatMap_singleton, List.map_append,
      ← removed]
    generalize (Entry.accepted? ⟨now, c, q⟩).toList = new at step ⊢
    calc accepted h ++ new
      _ ~ q.ids ++ (removed h).map Job.id ++ new := ih.append_right new
      _ ~ q.ids ++ new ++ (removed h).map Job.id := by
        simpa only [List.append_assoc] using List.perm_append_comm.append_left q.ids
      _ ~ (c.after now q).ids ++ (Entry.removed ⟨now, c, q⟩).map Job.id ++
          (removed h).map Job.id := step.append_right _
      _ ~ (c.after now q).ids ++ ((removed h).map Job.id ++
          (Entry.removed ⟨now, c, q⟩).map Job.id) := by
        simpa only [List.append_assoc] using List.perm_append_comm.append_left _

/-- Every entry of a run is one of `Entry.removed_cases`. -/
theorem Run.removed_cases (run : Run h q) {e : Entry} (he : e ∈ h) :
    (∃ cutoff, e.call = .prune cutoff ∧
      e.removed = e.before.jobs.values.filter (isPrunable cutoff) ∧
      e.pruneCount = e.removed.length) ∨ (e.removed = [] ∧ e.pruneCount = 0) := by
  obtain ⟨pre, post, rfl⟩ := List.append_of_mem he
  obtain ⟨before, fresh⟩ := run.before
  exact Entry.removed_cases before.keyed fun id => before.get?_fresh fresh

/-- Only what is completed and old enough is ever removed. -/
theorem Run.removed_prunable (run : Run h q) {e : Entry} (he : e ∈ h) {j : Job}
    (hj : j ∈ e.removed) : ∃ cutoff, e.call = .prune cutoff ∧ j ∈ e.before.jobs.values ∧
      j.state = .completed ∧ j.updatedAt < cutoff := by
  rcases run.removed_cases he with ⟨cutoff, call, removed, -⟩ | ⟨none, -⟩
  · rw [removed, List.mem_filter] at hj
    simp only [isPrunable, Bool.and_eq_true, decide_eq_true_eq] at hj
    exact ⟨cutoff, call, hj⟩
  · rw [none] at hj
    cases hj

theorem Run.sum_pruneCount (run : Run h q) :
    (h.map Entry.pruneCount).sum = (removed h).length := by
  rw [removed, List.length_flatMap]
  refine congrArg List.sum (List.map_congr_left fun e he => ?_)
  rcases run.removed_cases he with ⟨-, -, -, count⟩ | ⟨removed, count⟩
  · exact count
  · rw [count, removed]
    rfl

end

section

variable (q : Queue)

/-- Every job is in one of the four states. -/
theorem depth_total : q.depth.queued + q.depth.leased + q.depth.completed + q.depth.dlq =
    q.ids.length := by
  rw [ids, List.length_map]
  simp only [depth, countIn, ← List.countP_eq_length_filter]
  induction q.jobs.values with
  | nil => rfl
  | cons j js ih =>
    simp only [List.countP_cons, List.length_cons]
    cases j.state <;> simp <;> omega

theorem depth_active : q.depth.queued + q.depth.leased =
    (q.jobs.values.filter Job.isActive).length := by
  simp only [depth, countIn, ← List.countP_eq_length_filter]
  induction q.jobs.values with
  | nil => rfl
  | cons j js ih =>
    simp only [List.countP_cons]
    cases hs : j.state <;> simp [Job.isActive, JobState.isActive, hs] <;> omega

theorem sum_countKey (k : String) (counts : List (String × Nat)) :
    ((countKey k counts).map Prod.snd).sum = (counts.map Prod.snd).sum + 1 := by
  induction counts with
  | nil => rfl
  | cons c rest ih =>
    obtain ⟨k', n⟩ := c
    rw [countKey]
    split_ifs
    · simp only [List.map_cons, List.sum_cons]
      omega
    · simp only [List.map_cons, List.sum_cons]
      omega
    · simp only [List.map_cons, List.sum_cons, ih]
      omega

/-- Every active job is counted in one context. -/
theorem sum_depthByContext : (q.depthByContext.map Prod.snd).sum =
    (q.jobs.values.filter Job.isActive).length := by
  have count : ∀ (js : List Job) (counts : List (String × Nat)),
      ((js.foldl (fun counts j => countKey j.contextKey counts) counts).map Prod.snd).sum =
        (counts.map Prod.snd).sum + js.length := by
    intro js
    induction js with
    | nil => exact fun counts => rfl
    | cons j js ih =>
      intro counts
      rw [List.foldl_cons, ih, sum_countKey, List.length_cons]
      omega
  rw [depthByContext, count]
  exact Nat.zero_add _

end

/-- Every active job is the only one of its intent. -/
theorem card_activeIntents {q : Queue} (keyed : q.Keyed) (hq : q.Indexed) :
    q.activeIntents.card = (q.jobs.values.filter Job.isActive).length := by
  have apart : ((q.jobs.values.filter Job.isActive).map Job.intentId).Nodup := by
    have nodup : (q.jobs.values.filter Job.isActive).Nodup :=
      (keyed.values_nodup.of_map _).filter _
    refine nodup.map_on fun j hj k hk same => ?_
    rw [List.mem_filter, keyed.mem_values_iff] at hj hk
    have one := hq.unique hj.1 hk.1 same hj.2 hk.2
    have stored := hk.1
    rw [← one, hj.1] at stored
    exact Option.some.inj stored
  rw [activeIntents, List.toFinset_card_of_nodup apart, List.length_map]

/-- The jobs that were accepted, by an enqueue or as the child of a replay, are those that are
stored and those that a prune removed once they were completed and older than its cutoff, each of
them once. So the figures by state and the answers of all prunes add up to the number of accepted
jobs, and the waiting and leased jobs are as many as the figures by context say and as the intents
that have one. -/
theorem Run.accepted_conserved {h : List Entry} {q : Queue} (run : Run h q) :
    (accepted h).Nodup ∧ (accepted h).Perm (q.ids ++ (removed h).map Job.id) ∧
      (∀ id, id ∈ q.ids ↔ ∃ j, q.get? id = some j ∧ j.id = id) ∧
      (∀ e ∈ h, ∀ j ∈ e.removed, ∃ cutoff, e.call = .prune cutoff ∧ j ∈ e.before.jobs.values ∧
        j.state = .completed ∧ j.updatedAt < cutoff) ∧
      q.depth.queued + q.depth.leased + q.depth.completed + q.depth.dlq +
        (h.map Entry.pruneCount).sum = (accepted h).length ∧
      q.depth.queued + q.depth.leased = (q.depthByContext.map Prod.snd).sum ∧
      q.depth.queued + q.depth.leased = q.activeIntents.card := by
  have perm := run.accepted_perm
  refine ⟨run.accepted_nodup, perm, ?_, ?_, ?_, ?_, ?_⟩
  · intro id
    rw [run.keyed.mem_ids_iff]
    exact exists_congr fun j => ⟨fun hj => ⟨hj, run.keyed id j hj⟩, And.left⟩
  · intro e he j hj
    exact run.removed_prunable he hj
  · rw [depth_total, run.sum_pruneCount, perm.length_eq, List.length_append, List.length_map]
  · rw [depth_active, sum_depthByContext]
  · rw [depth_active, card_activeIntents run.keyed run.indexed]

/-- One job is completed and forgotten, another dies and is started again as a third. -/
def turnover : List (Timestamp × Call) :=
  [(.epoch, .enqueue (sampleJob 1 "i-1")),
    (.epoch, .lease "w-1" 8 (.ofSeconds 60)),
    (.epoch, .complete ⟨.ofNat 1⟩ "w-1"),
    (.epoch, .enqueue (sampleJob 2 "i-2")),
    (.epoch, .lease "w-1" 8 (.ofSeconds 60)),
    (.epoch, .moveToDlq ⟨.ofNat 2⟩ "w-1" .awaitingManualAction "boom"),
    (.epoch, .replay ⟨.ofNat 2⟩ ⟨.ofNat 3⟩),
    (.epoch, .enqueue (sampleJob 4 "i-2")),
    (.epoch, .prune (.clamp 1))]

theorem accepted_conserved_turnover : ∃ h q, Run h q ∧
    accepted h = [⟨.ofNat 1⟩, ⟨.ofNat 2⟩, ⟨.ofNat 3⟩] ∧ (removed h).map Job.id = [⟨.ofNat 1⟩] ∧
      q.ids = [⟨.ofNat 2⟩, ⟨.ofNat 3⟩] ∧ (accepted h).Perm (q.ids ++ (removed h).map Job.id) ∧
      q.activeIntents.card = q.depth.queued + q.depth.leased := by
  have run := @run_entries turnover (by decide +kernel)
  obtain ⟨-, perm, -, -, -, -, active⟩ := run.accepted_conserved
  exact ⟨_, _, run, by decide +kernel, by decide +kernel, by decide +kernel, perm, active.symm⟩

end Courier.Queue
