import Mathlib.Data.List.Induction
import Mathlib.Tactic.SplitIfs
import Courier.AttemptLog
import Courier.Proofs.Table

/-! The log of attempts over whole histories. What a caller is answered depends on the calls for its
key alone: whoever may go ahead keeps all others out until it is done or gives up, an attempt that
is done stays so, and one under way is as old as the call that may go ahead with it. -/

namespace Courier.AttemptLog

/-- What may be asked of the log. -/
inductive Call where
  | begin
  | complete (metadata : Json)
  | clear

/-- A call for a key, with the time that it reads off the clock. -/
structure Act where
  key : String
  now : Timestamp
  call : Call

namespace Act

def completes (key : String) (a : Act) : Bool :=
  match a.call with
  | .complete _ => a.key = key
  | _ => false

def clears (key : String) (a : Act) : Bool :=
  match a.call with
  | .clear => a.key = key
  | _ => false

def run (staleAfter : Span) (log : AttemptLog) (a : Act) : AttemptLog :=
  match a.call with
  | .begin => (begin staleAfter a.key a.now log).2
  | .complete metadata => complete a.key metadata a.now log
  | .clear => clear a.key log

/-- The entry of the call's own key after the call. -/
def entry (a : Act) (r : Option AttemptRecord) : Option AttemptRecord :=
  match a.call with
  | .begin => r.or (some ⟨a.key, .inProgress, a.now, .null⟩)
  | .complete metadata => some ⟨a.key, .done, a.now, metadata⟩
  | .clear => r.bind fun r => if r.state = .inProgress then none else some r

end Act

/-- The log after a history, the clock read anyhow. -/
def after (staleAfter : Span) (past : List Act) : AttemptLog :=
  past.foldl (Act.run staleAfter) Table.empty

/-- What a caller that wants to begin is answered after a history. -/
def answer (staleAfter : Span) (past : List Act) (key : String) (now : Timestamp) : Beginning :=
  (begin staleAfter key now (after staleAfter past)).1

section

variable {staleAfter : Span} {past pre mid : List Act} {key : String} {a : Act}

theorem answer_eq (now : Timestamp) : answer staleAfter past key now =
    match (after staleAfter past).get? key with
    | none => .first
    | some r =>
      match r.state with
      | .done => .done r
      | .inProgress => .underWay (decide (staleAfter ≤ now.since r.updatedAt)) r.updatedAt := by
  rw [answer, begin]
  cases (after staleAfter past).get? key with
  | none => rfl
  | some r => cases hs : r.state <;> simp only [hs]

theorem answer_first_iff (now : Timestamp) :
    answer staleAfter past key now = .first ↔ (after staleAfter past).get? key = none := by
  rw [answer_eq]
  constructor
  · intro first
    split at first
    · assumption
    · split at first <;> cases first
  · intro absent
    rw [absent]

theorem get?_begin (own : String) (now : Timestamp) (log : AttemptLog) (key : String) :
    (begin staleAfter own now log).2.get? key =
      if key = own then (log.get? own).or (some ⟨own, .inProgress, now, .null⟩)
      else log.get? key := by
  unfold begin
  cases present : log.get? own with
  | none => exact Table.get?_insert _ _ _ _
  | some r =>
    have same : log.get? key = if key = own then some r else log.get? key := by
      split_ifs with h
      · rw [h, present]
      · rfl
    cases hs : r.state with
    | inProgress | done => simpa only [hs, Option.some_or] using same

theorem get?_cleared (own : String) (log : AttemptLog) (key : String) :
    (clear own log).get? key =
      if key = own then (log.get? own).bind fun r => if r.state = .inProgress then none else some r
      else log.get? key := by
  unfold clear
  cases present : log.get? own with
  | none =>
    split_ifs with h
    · rw [h, present, Option.bind_none]
    · rfl
  | some r =>
    dsimp only [Option.bind_some]
    split_ifs with under h h
    · rw [h, Table.get?_erase, if_pos rfl]
    · rw [Table.get?_erase, if_neg h]
    · rw [h, present]
    · rfl

theorem get?_run (a : Act) (log : AttemptLog) (key : String) : (a.run staleAfter log).get? key =
    if key = a.key then a.entry (log.get? a.key) else log.get? key := by
  obtain ⟨own, now, call⟩ := a
  cases call with
  | begin => exact get?_begin own now log key
  | complete metadata => exact Table.get?_insert _ _ _ _
  | clear => exact get?_cleared own log key

theorem get?_after_snoc (past : List Act) (a : Act) (key : String) :
    (after staleAfter (past ++ [a])).get? key =
      if key = a.key then a.entry ((after staleAfter past).get? a.key)
      else (after staleAfter past).get? key := by
  rw [after, List.foldl_append, List.foldl_cons, List.foldl_nil, get?_run]
  rfl

/-- No call but a completion touches an entry that is done, and only giving up touches any other. -/
theorem get?_after_snoc_of_kept {r : AttemptRecord}
    (h : (after staleAfter past).get? key = some r) (incomplete : a.completes key = false)
    (kept : r.state = .done ∨ a.clears key = false) :
    (after staleAfter (past ++ [a])).get? key = some r := by
  rw [get?_after_snoc]
  split_ifs with own
  · obtain ⟨_, now, call⟩ := a
    subst own
    cases call with
    | begin => simp [Act.entry, h]
    | complete metadata => simp [Act.completes] at incomplete
    | clear =>
      have done : r.state = .done := kept.resolve_right (by simp [Act.clears])
      simp [Act.entry, h, done]
  · exact h

theorem get?_after_cons {r : AttemptRecord} (h : (after staleAfter (pre ++ [a])).get? key = some r)
    (incomplete : ∀ b ∈ mid, b.completes key = false)
    (kept : r.state = .done ∨ ∀ b ∈ mid, b.clears key = false) :
    (after staleAfter (pre ++ a :: mid)).get? key = some r := by
  induction mid using List.reverseRecOn with
  | nil => exact h
  | append_singleton mid b ih =>
    have before := ih (fun c hc => incomplete c (by simp [hc]))
      (kept.imp_right fun all c hc => all c (by simp [hc]))
    rw [← List.cons_append, ← List.append_assoc]
    exact get?_after_snoc_of_kept before (incomplete b (by simp))
      (kept.imp_right fun all => all b (by simp))

theorem get?_after_begin (absent : (after staleAfter pre).get? key = none) (now : Timestamp) :
    (after staleAfter (pre ++ [⟨key, now, .begin⟩])).get? key =
      some ⟨key, .inProgress, now, .null⟩ := by
  rw [get?_after_snoc, if_pos rfl]
  simp [Act.entry, absent]

theorem get?_after_complete (staleAfter : Span) (pre : List Act) (key : String) (now : Timestamp)
    (metadata : Json) : (after staleAfter (pre ++ [⟨key, now, .complete metadata⟩])).get? key =
      some ⟨key, .done, now, metadata⟩ := by
  rw [get?_after_snoc, if_pos rfl]
  rfl

/-- What was done once is done for good, with this outcome or another. -/
theorem done_of_completes (staleAfter : Span) (h : ∃ a ∈ past, a.completes key = true) :
    ∃ r, (after staleAfter past).get? key = some r ∧ r.state = .done := by
  induction past using List.reverseRecOn with
  | nil => simp at h
  | append_singleton past b ih =>
    by_cases last : b.completes key = true
    · obtain ⟨own, now, call⟩ := b
      cases call with
      | begin | clear => cases last
      | complete metadata =>
        obtain rfl : own = key := of_decide_eq_true last
        exact ⟨_, get?_after_complete staleAfter past own now metadata, rfl⟩
    · obtain ⟨a, mem, completes⟩ := h
      have earlier : a ∈ past := by
        rcases List.mem_append.1 mem with old | new
        · exact old
        · rw [List.mem_singleton.1 new] at completes
          exact absurd completes last
      obtain ⟨r, present, done⟩ := ih ⟨a, earlier, completes⟩
      exact ⟨r, get?_after_snoc_of_kept present (by simpa using last) (Or.inl done), done⟩

/-- Somebody went ahead for the key at `since`, and nobody has given that up. -/
def OpenSince (staleAfter : Span) (past : List Act) (key : String) (since : Timestamp) : Prop :=
  ∃ pre mid, past = pre ++ ⟨key, since, .begin⟩ :: mid ∧
    (∀ now, answer staleAfter pre key now = .first) ∧ ∀ a ∈ mid, a.clears key = false

theorem OpenSince.snoc {since : Timestamp} (h : OpenSince staleAfter past key since)
    (kept : a.clears key = false) : OpenSince staleAfter (past ++ [a]) key since := by
  obtain ⟨pre, mid, rfl, first, uncleared⟩ := h
  refine ⟨pre, mid ++ [a], by simp, first, ?_⟩
  intro b hb
  rcases List.mem_append.1 hb with old | new
  · exact uncleared b old
  · rwa [List.mem_singleton.1 new]

/-- An entry that is under way was so before the last call, or that call went ahead with it. -/
theorem underWay_snoc_cases {r : AttemptRecord} (incomplete : a.completes key = false)
    (undone : ∀ r, (after staleAfter past).get? key = some r → r.state = .inProgress)
    (present : (after staleAfter (past ++ [a])).get? key = some r) :
    ((after staleAfter past).get? key = some r ∧ a.clears key = false) ∨
      (after staleAfter past).get? key = none ∧
        ∃ now, a = ⟨key, now, .begin⟩ ∧ r = ⟨key, .inProgress, now, .null⟩ := by
  rw [get?_after_snoc] at present
  split_ifs at present with own
  · obtain ⟨_, now, call⟩ := a
    subst own
    cases call with
    | begin =>
      cases earlier : (after staleAfter past).get? key with
      | none =>
        simp only [Act.entry, earlier, Option.none_or, Option.some.injEq] at present
        exact Or.inr ⟨rfl, now, rfl, present.symm⟩
      | some r' =>
        simp only [Act.entry, earlier, Option.some_or] at present
        exact Or.inl ⟨present, rfl⟩
    | complete metadata => simp [Act.completes] at incomplete
    | clear =>
      -- Nothing that is under way is left after giving up.
      obtain ⟨r', earlier, left⟩ := Option.bind_eq_some_iff.1 present
      rw [if_pos (undone r' earlier)] at left
      cases left
  · refine Or.inl ⟨present, ?_⟩
    unfold Act.clears
    split
    · exact decide_eq_false (Ne.symm own)
    · rfl

/-- Where nothing was ever done, an entry dates from the call that went ahead with it. -/
theorem exists_openSince {r : AttemptRecord} (incomplete : ∀ a ∈ past, a.completes key = false)
    (present : (after staleAfter past).get? key = some r) :
    ∃ since, r = ⟨key, .inProgress, since, .null⟩ ∧ OpenSince staleAfter past key since := by
  induction past using List.reverseRecOn generalizing r with
  | nil => cases present
  | append_singleton past b ih =>
    have before : ∀ a ∈ past, a.completes key = false := fun a ha => incomplete a (by simp [ha])
    have undone : ∀ r, (after staleAfter past).get? key = some r → r.state = .inProgress := by
      intro r earlier
      obtain ⟨since, rfl, -⟩ := ih before earlier
      rfl
    rcases underWay_snoc_cases (incomplete b (by simp)) undone present with
      ⟨earlier, kept⟩ | ⟨absent, now, rfl, rfl⟩
    · obtain ⟨since, same, opened⟩ := ih before earlier
      exact ⟨since, same, opened.snoc kept⟩
    · have first := fun t => (answer_first_iff t).2 absent
      exact ⟨now, rfl, past, [], rfl, first, by simp⟩

/-- What the history tells of a key. -/
structure Guards (staleAfter : Span) (past : List Act) (key : String) : Prop where
  /-- Two go ahead only when the first has given up in between, and nothing is done yet. -/
  exclusive {pre mid : List Act} {t t' : Timestamp} :
    past = pre ++ ⟨key, t, .begin⟩ :: mid → answer staleAfter pre key t = .first →
      answer staleAfter past key t' = .first →
        (∃ a ∈ mid, a.clears key = true) ∧ ∀ a ∈ past, a.completes key = false
  /-- The latest completion answers for good. -/
  done {pre mid : List Act} {t : Timestamp} {metadata : Json} :
    past = pre ++ ⟨key, t, .complete metadata⟩ :: mid → (∀ a ∈ mid, a.completes key = false) →
      (∀ now, answer staleAfter past key now = .done ⟨key, .done, t, metadata⟩) ∧
        clear key (after staleAfter past) = after staleAfter past
  /-- Before that, an entry is as old as the call that went ahead with it. -/
  underWay : (∀ a ∈ past, a.completes key = false) → (after staleAfter past).get? key ≠ none →
    ∃ since, OpenSince staleAfter past key since ∧ ∀ now, answer staleAfter past key now =
      .underWay (decide (staleAfter ≤ now.since since)) since

/-- The log guards every key through every history. -/
theorem guards (staleAfter : Span) (past : List Act) (key : String) :
    Guards staleAfter past key where
  exclusive {pre mid t t'} split first first' := by
    rw [answer_first_iff] at first first'
    have incomplete : ∀ a ∈ past, a.completes key = false := by
      intro a mem
      by_contra completes
      obtain ⟨r, present, -⟩ :=
        done_of_completes staleAfter ⟨a, mem, by simpa using completes⟩
      rw [first'] at present
      cases present
    refine ⟨?_, incomplete⟩
    by_contra uncleared
    have kept : ∀ a ∈ mid, a.clears key = false := by simpa using uncleared
    subst split
    have present := get?_after_cons (get?_after_begin first t)
      (fun a ha => incomplete a (by simp [ha])) (Or.inr kept)
    rw [first'] at present
    cases present
  done {pre mid t metadata} split latest := by
    subst split
    have written := get?_after_complete staleAfter pre key t metadata
    have present := get?_after_cons written latest (Or.inl rfl)
    refine ⟨fun now => ?_, ?_⟩
    · rw [answer_eq, present]
    · simp [clear, present]
  underWay incomplete present := by
    obtain ⟨r, present⟩ := Option.ne_none_iff_exists'.1 present
    obtain ⟨since, rfl, opened⟩ := exists_openSince incomplete present
    refine ⟨since, opened, fun now => ?_⟩
    rw [answer_eq, present]

end

/-- An attempt for `k` is begun and given up, while one for `j` comes to its end. -/
def givenUp : List Act :=
  [⟨"k", .epoch, .begin⟩, ⟨"j", .epoch, .complete .null⟩, ⟨"k", .epoch, .clear⟩]

/-- Another may go ahead with `k` then, and keeps others out; and `j` stays done. -/
theorem guards_givenUp :
    let stale := Span.ofSeconds 900
    let t := Timestamp.epoch.add (.ofSeconds 5)
    let again := givenUp ++ [⟨"k", t, .begin⟩, ⟨"k", .epoch, .begin⟩]
    (answer stale [] "k" .epoch = .first ∧ answer stale givenUp "k" t = .first) ∧
      (∃ a ∈ givenUp.tail, a.clears "k" = true) ∧
      (∀ now, answer stale again "k" now = .underWay (decide (stale ≤ now.since t)) t) ∧
      ∀ now, answer stale again "j" now = .done ⟨"j", .done, .epoch, .null⟩ := by
  intro stale t again
  have first : answer stale [] "k" .epoch = .first := rfl
  have first' : answer stale givenUp "k" t = .first := rfl
  have another : answer stale again "k" t = .underWay false t := rfl
  have taken : (after stale again).get? "k" ≠ none := by
    rw [ne_eq, ← answer_first_iff t, another]
    nofun
  obtain ⟨since, -, all⟩ := (guards stale again "k").underWay (by decide) taken
  obtain ⟨-, rfl⟩ : false = _ ∧ t = since := Beginning.underWay.inj (another.symm.trans (all t))
  have begun : givenUp = [] ++ ⟨"k", .epoch, .begin⟩ :: givenUp.tail := rfl
  have ended : again = givenUp.take 1 ++ ⟨"j", .epoch, .complete .null⟩ :: again.drop 2 := rfl
  refine ⟨⟨first, first'⟩, ?_, all, ?_⟩
  · exact ((guards stale givenUp "k").exclusive begun first first').1
  · exact ((guards stale again "j").done ended (by decide)).1

end Courier.AttemptLog
